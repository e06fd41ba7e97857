import MagicalOs.Kernel.QueueInvariant

/-!
# The scheduling fields of a task

Besides its links, scheduling changes three fields of a task structure: the
time slice flag, the remaining sleeping time and the awaited event.  `fields`
reads them together, and the module says for every routine of `sched.c` what it
does to the fields of each task: a queue operation changes none of them, a
visit of a traversal changes those of the visited task only.
-/

namespace MagicalOs.Kernel.TaskFields

open MagicalOs.Library.ByteMemory
open MagicalOs.Library.ByteMemory.Memory
open MagicalOs.Kernel.HeapPages
open MagicalOs.Kernel.MachineState
open MagicalOs.Kernel.TaskStructure
open MagicalOs.Kernel.TaskCreation
open MagicalOs.Kernel.SchedQueues
open MagicalOs.Kernel.Scheduler
open MagicalOs.Kernel.TaskQueues
open MagicalOs.Kernel.SchedTraversal
open MagicalOs.Kernel.Dispatch
open MagicalOs.Kernel.KernelRuns
open MagicalOs.Kernel.QueueInvariant

@[ext]
structure Fields where
  taskSwitchedInTimeSlice : Byte
  wakeupAfterMsec : Word
  wakeupAfterEvent : Byte

def fields (mem : Memory) (task : Nat) : Fields where
  taskSwitchedInTimeSlice := taskSwitchedInTimeSlice mem task
  wakeupAfterMsec := wakeupAfterMsec mem task
  wakeupAfterEvent := wakeupAfterEvent mem task

/-! ## Stores and links -/

section Stores

variable {mem after : Memory} {tasks : List Nat} {task other : Nat}

theorem fields_of_agreeOn (agree : AgreeOn after mem (task + 132) 12) :
    fields after task = fields mem task := by
  have flag : taskSwitchedInTimeSlice after task =
      taskSwitchedInTimeSlice mem task :=
    (agree.sub (task + 132) 1 (by omega) (by omega)).load8
  have msec : wakeupAfterMsec after task = wakeupAfterMsec mem task :=
    (agree.sub (task + 136) 4 (by omega) (by omega)).load32
  have event : wakeupAfterEvent after task = wakeupAfterEvent mem task :=
    (agree.sub (task + 140) 1 (by omega) (by omega)).load8
  rw [fields, fields, flag, msec, event]

/-- Changes of links leave the fields of every task alone. -/
theorem fields_of_linksOnly (links : LinksOnly mem after tasks)
    (pages : ∀ task ∈ tasks, IsHeapPage task) (page : IsHeapPage task) :
    fields after task = fields mem task :=
  fields_of_agreeOn
    (agreeOn_of_linksOnly links pages page 132 12 (by omega) (by omega))

/-- Queueing a task leaves them alone. -/
theorem fields_queueEnq {queue : Queue} (holds : QueueRing mem queue tasks)
    (page : IsHeapPage task) (fresh : task ∉ tasks)
    (otherPage : IsHeapPage other) :
    fields (queueEnq mem queue task).1 other = fields mem other := by
  refine fields_of_linksOnly (queueEnq_linksOnly holds page fresh) ?_ otherPage
  intro linked member
  rcases List.mem_cons.mp member with rfl | queued
  · exact page
  · exact holds.pages linked queued

/-- So does a store into the kernel image. -/
theorem fields_of_image {base size : Nat} (below : base + size ≤ 0x11000)
    (agree : AgreeOutside after mem base size) (page : IsHeapPage task) :
    fields after task = fields mem task := by
  have high := page.lower
  exact fields_of_agreeOn (agree.agreeOn (task + 132) 12 (by omega))

/-- A store to the fields of one task does not reach another one. -/
theorem fields_of_tail (page : IsHeapPage task) (otherPage : IsHeapPage other)
    (different : other ≠ task)
    (agree : AgreeOutside after mem (task + 132) 12) :
    fields after other = fields mem other := by
  have apart := otherPage.apart page different
  exact fields_of_agreeOn (agree.agreeOn (other + 132) 12 (by omega))

/-! ## The three setters -/

theorem fields_setFlag_self (mem : Memory) (task : Nat) (value : Byte) :
    fields (setTaskSwitchedInTimeSlice mem task value) task =
      { fields mem task with taskSwitchedInTimeSlice := value } := by
  have agree := store8_agreeOutside mem (task + 132) value
  apply Fields.ext
  · exact store8_self mem (task + 132) value
  · exact (agree.agreeOn (task + 136) 4 (by omega)).load32
  · exact (agree.agreeOn (task + 140) 1 (by omega)).load8

theorem fields_setMsec_self (mem : Memory) (task : Nat) (value : Word) :
    fields (setWakeupAfterMsec mem task value) task =
      { fields mem task with wakeupAfterMsec := value } := by
  have agree := store32_agreeOutside mem (task + 136) value
  apply Fields.ext
  · exact (agree.agreeOn (task + 132) 1 (by omega)).load8
  · exact load32_store32_self mem (task + 136) value
  · exact (agree.agreeOn (task + 140) 1 (by omega)).load8

theorem fields_setEvent_self (mem : Memory) (task : Nat) (value : Byte) :
    fields (setWakeupAfterEvent mem task value) task =
      { fields mem task with wakeupAfterEvent := value } := by
  have agree := store8_agreeOutside mem (task + 140) value
  apply Fields.ext
  · exact (agree.agreeOn (task + 132) 1 (by omega)).load8
  · exact (agree.agreeOn (task + 136) 4 (by omega)).load32
  · exact store8_self mem (task + 140) value

/-- A store to the fields of a task, seen from all tasks. -/
theorem fields_of_store (change : Fields → Fields)
    (stored : fields after task = change (fields mem task))
    (agree : AgreeOutside after mem (task + 132) 12)
    (page : IsHeapPage task) (otherPage : IsHeapPage other) :
    fields after other =
      if other = task then change (fields mem other)
      else fields mem other := by
  split
  next same => rw [same, stored]
  next different => exact fields_of_tail page otherPage different agree

theorem fields_setFlag (value : Byte) (page : IsHeapPage task)
    (otherPage : IsHeapPage other) :
    fields (setTaskSwitchedInTimeSlice mem task value) other =
      if other = task then
        { fields mem other with taskSwitchedInTimeSlice := value }
      else fields mem other :=
  fields_of_store (fun before => { before with taskSwitchedInTimeSlice := value })
    (fields_setFlag_self mem task value)
    (setTaskSwitchedInTimeSlice_tail _ _ _) page otherPage

theorem fields_setMsec (value : Word) (page : IsHeapPage task)
    (otherPage : IsHeapPage other) :
    fields (setWakeupAfterMsec mem task value) other =
      if other = task then
        { fields mem other with wakeupAfterMsec := value }
      else fields mem other :=
  fields_of_store (fun before => { before with wakeupAfterMsec := value })
    (fields_setMsec_self mem task value)
    (setWakeupAfterMsec_tail _ _ _) page otherPage

theorem fields_setEvent (value : Byte) (page : IsHeapPage task)
    (otherPage : IsHeapPage other) :
    fields (setWakeupAfterEvent mem task value) other =
      if other = task then
        { fields mem other with wakeupAfterEvent := value }
      else fields mem other :=
  fields_of_store (fun before => { before with wakeupAfterEvent := value })
    (fields_setEvent_self mem task value)
    (setWakeupAfterEvent_tail _ _ _) page otherPage

end Stores

/-! ## The traversals -/

section Traversals

variable {machine after : Machine} {queues : Queues}
  {run sleep event : List Nat} {task other iterations : Nat} {result : Int}

/-- What a tick does to the fields of a sleeper. -/
def slept (before : Fields) : Fields :=
  { before with
    wakeupAfterMsec :=
      if timerTickMs < before.wakeupAfterMsec then
        before.wakeupAfterMsec - timerTickMs
      else 0#32 }

/-- What an event does to the fields of a waiting task. -/
def notified (eventType : Byte) (before : Fields) : Fields :=
  if before.wakeupAfterEvent = eventType then
    { before with wakeupAfterEvent := 0#8 }
  else before

theorem fields_visitSleeper
    (holds : Represents machine ⟨run, sleep, event⟩) (member : task ∈ sleep)
    (otherPage : IsHeapPage other) :
    fields (visitSleeper machine task).mem other =
      if other = task then slept (fields machine.mem other)
      else fields machine.mem other := by
  have page := holds.sleep.pages task member
  have stores (value : Word) :
      fields (setWakeupAfterMsec machine.mem task value) other =
        if other = task then
          { fields machine.mem other with wakeupAfterMsec := value }
        else fields machine.mem other :=
    fields_setMsec value page otherPage
  cases due : sleeperDue machine.mem task with
  | false =>
      rw [visitSleeper_of_early due, stores]
      split
      next same =>
        have early : timerTickMs < wakeupAfterMsec machine.mem other := by
          simpa [sleeperDue, same] using due
        rw [slept, if_pos (show timerTickMs <
          (fields machine.mem other).wakeupAfterMsec from early), ← same]
        rfl
      next => rfl
  | true =>
      rcases List.append_of_mem member with ⟨front, back, rfl⟩
      have stored : Represents
          { machine with mem := setWakeupAfterMsec machine.mem task 0#32 }
          ⟨run, front ++ task :: back, event⟩ :=
        holds.of_tail page (setWakeupAfterMsec_tail _ _ _)
      have moved := fields_of_linksOnly (wakeSleeper stored).links
        stored.pages otherPage
      rw [visitSleeper_of_due due]
      refine moved.trans ((stores 0#32).trans ?_)
      split
      next same =>
        have late : ¬timerTickMs < wakeupAfterMsec machine.mem other := by
          simpa [sleeperDue, same] using due
        rw [slept, if_neg (show ¬timerTickMs <
          (fields machine.mem other).wakeupAfterMsec from late)]
      next => rfl

theorem fields_visitWaiter {eventType : Byte}
    (holds : Represents machine ⟨run, sleep, event⟩) (member : task ∈ event)
    (otherPage : IsHeapPage other) :
    fields (visitWaiter eventType machine task).mem other =
      if other = task then notified eventType (fields machine.mem other)
      else fields machine.mem other := by
  have page := holds.event.pages task member
  cases due : waiterDue eventType machine.mem task with
  | false =>
      rw [visitWaiter_of_other due]
      split
      next same =>
        have later : ¬wakeupAfterEvent machine.mem other = eventType := by
          simpa [waiterDue, same] using due
        rw [notified, if_neg (show
          ¬(fields machine.mem other).wakeupAfterEvent = eventType from later)]
      next => rfl
  | true =>
      rcases List.append_of_mem member with ⟨front, back, rfl⟩
      have stored : Represents
          { machine with mem := setWakeupAfterEvent machine.mem task 0#8 }
          ⟨run, sleep, front ++ task :: back⟩ :=
        holds.of_tail page (setWakeupAfterEvent_tail _ _ _)
      have moved := fields_of_linksOnly (wakeWaiter stored).links
        stored.pages otherPage
      rw [visitWaiter_of_due due]
      refine moved.trans ((fields_setEvent 0#8 page otherPage).trans ?_)
      split
      next same =>
        have awaited : wakeupAfterEvent machine.mem other = eventType := by
          simpa [waiterDue, same] using due
        rw [notified, if_pos (show
          (fields machine.mem other).wakeupAfterEvent = eventType from awaited)]
      next => rfl

/-- Visiting several tasks of a queue changes the fields of these tasks. -/
theorem foldl_fields {queue : Machine → Queue}
    {visit : Machine → Nat → Machine} {due : Memory → Nat → Bool}
    {Holds : Machine → List Nat → List Nat → Prop}
    (visits : Visits queue visit due Holds) (change : Fields → Fields)
    (effect : ∀ {machine source run task other},
      Holds machine source run → task ∈ source → IsHeapPage other →
      fields (visit machine task).mem other =
        if other = task then change (fields machine.mem other)
        else fields machine.mem other)
    {source todo : List Nat} (holds : Holds machine source run)
    (subset : todo ⊆ source) (nodup : todo.Nodup)
    (otherPage : IsHeapPage other) :
    fields (todo.foldl visit machine).mem other =
      if other ∈ todo then change (fields machine.mem other)
      else fields machine.mem other := by
  induction todo generalizing machine source run with
  | nil => simp
  | cons task rest induction =>
      have member : task ∈ source := subset (List.mem_cons_self)
      have restSubset : rest ⊆ source :=
        fun node inRest => subset (List.mem_cons_of_mem task inRest)
      rcases List.nodup_cons.mp nodup with ⟨fresh, restNodup⟩
      have visited := effect holds member otherPage
      have remaining :
          fields (rest.foldl visit (visit machine task)).mem other =
          if other ∈ rest then change (fields (visit machine task).mem other)
          else fields (visit machine task).mem other := by
        cases isDue : due machine.mem task with
        | false =>
            exact induction (visits.keep holds member isDue) restSubset
              restNodup
        | true =>
            rcases List.append_of_mem member with ⟨front, back, rfl⟩
            refine induction (visits.move holds isDue) ?_ restNodup
            intro node inRest
            have inSource := restSubset inRest
            simp only [List.mem_append, List.mem_cons] at inSource ⊢
            rcases inSource with inFront | rfl | inBack
            · exact .inl inFront
            · exact absurd inRest fresh
            · exact .inr inBack
      rw [List.foldl_cons, remaining, visited]
      by_cases same : other = task
      · subst same
        simp [fresh]
      · simp [same]

theorem visited_subset (due : Nat → Bool) (tasks : List Nat) :
    visited due tasks ⊆ tasks := by
  cases tasks with
  | nil => simp [visited]
  | cons head rest =>
      rw [visited]
      split
      next => simp
      next => exact List.Subset.refl _

theorem visited_nodup {due : Nat → Bool} {tasks : List Nat}
    (nodup : tasks.Nodup) : (visited due tasks).Nodup := by
  cases tasks with
  | nil => exact nodup
  | cons head rest =>
      rw [visited]
      split
      next => exact List.nodup_singleton head
      next => exact nodup

/-- The fields of the tasks after `sched_update_wakeupq`. -/
theorem fields_visitSleepers (holds : Represents machine queues)
    (otherPage : IsHeapPage other) :
    fields (visitSleepers machine queues).mem other =
      if other ∈ visited (sleeperDue machine.mem) queues.sleep then
        slept (fields machine.mem other)
      else fields machine.mem other := by
  rcases queues with ⟨run, sleep, event⟩
  have start : Sleepers machine ⟨run, sleep, event⟩ event machine sleep run :=
    Requeued.refl holds
  refine foldl_fields
    (visitSleeper_visits machine ⟨run, sleep, event⟩ event) slept ?_ start
    (visited_subset _ _) (visited_nodup holds.sleep.ring.nodup) otherPage
  intro machine source run task other holds member page
  exact fields_visitSleeper holds.represents member page

/-- The fields of the tasks after `sched_update_wakeupevq`. -/
theorem fields_visitWaiters (eventType : Byte)
    (holds : Represents machine queues) (otherPage : IsHeapPage other) :
    fields (visitWaiters machine eventType queues).mem other =
      if other ∈ visited (waiterDue eventType machine.mem) queues.event then
        notified eventType (fields machine.mem other)
      else fields machine.mem other := by
  rcases queues with ⟨run, sleep, event⟩
  have start : Waiters machine ⟨run, sleep, event⟩ sleep machine event run :=
    Requeued.refl holds
  refine foldl_fields
    (visitWaiter_visits eventType machine ⟨run, sleep, event⟩ sleep)
    (notified eventType) ?_ start
    (visited_subset _ _) (visited_nodup holds.event.ring.nodup) otherPage
  intro machine source run task other holds member page
  exact fields_visitWaiter holds.represents member page

end Traversals

/-! ## The dispatcher -/

section Schedule

variable {layout : Layout} {machine : Machine} {queues : Queues}
  {cause : SchedCause} {task : Nat}

/-- The flag of a task after a call of `schedule`. -/
def flagAfter (machine : Machine) (cause : SchedCause) (task : Nat) : Byte :=
  if cause = .syscall ∧ turn machine cause = some task then 1#8
  else if task = machine.currentTask then 0#8
  else taskSwitchedInTimeSlice machine.mem task

theorem fields_markTimeSlice (value : Byte)
    (holds : Dispatchable layout machine queues)
    (busy : machine.currentTask ≠ 0) (page : IsHeapPage task) :
    fields (markTimeSlice machine value).mem task =
      if task = machine.currentTask then
        { fields machine.mem task with taskSwitchedInTimeSlice := value }
      else fields machine.mem task := by
  rcases holds.current with idle | ready | ⟨isDummy, _⟩
  · exact absurd idle busy
  · exact fields_setFlag value (holds.represents.run.pages _ ready) page
  · have above := page.lower
    have below := layout.dummyTask_below
    have inImage : machine.currentTask + 132 + 12 ≤ 0x11000 := by
      rw [isDummy]
      exact below
    rw [if_neg (by omega)]
    exact fields_of_image inImage (setTaskSwitchedInTimeSlice_tail _ _ _) page

private theorem fields_switchTo {target : Nat} (ready : target ∈ queues.run)
    (holds : Represents machine queues) (page : IsHeapPage task) :
    fields (switchTo machine cause target).mem task =
      if cause = .syscall ∧ some target = some task then
        { fields machine.mem task with taskSwitchedInTimeSlice := 1#8 }
      else fields machine.mem task := by
  cases cause with
  | timer => rfl
  | syscall =>
      have targetPage := holds.run.pages target ready
      have stored : fields (setTaskSwitchedInTimeSlice machine.mem target 1#8)
          task = _ := fields_setFlag 1#8 targetPage page
      apply stored.trans
      simp [eq_comm]

private theorem fields_dispatch (holds : Dispatchable layout machine queues)
    (page : IsHeapPage task) :
    fields (dispatch machine cause).mem task =
      if cause = .syscall ∧ nextTurn machine = some task then
        { fields machine.mem task with taskSwitchedInTimeSlice := 1#8 }
      else fields machine.mem task := by
  have represents := holds.represents
  have emptyIff := represents.run.head_eq_zero_iff
  have nonNull := page.ne_null
  by_cases isEmpty : machine.runQueue.head = 0
  · by_cases idle : machine.currentTask = 0
    · simp only [dispatch, nextTurn, if_pos isEmpty, if_pos idle]
      rw [if_neg (by simp)]
      rfl
    · simp only [dispatch, nextTurn, if_pos isEmpty, if_neg idle]
      rw [if_neg (by simp [nonNull.symm])]
      rfl
  have nonEmpty : queues.run ≠ [] := fun none => isEmpty (emptyIff.mpr none)
  by_cases idle : machine.currentTask = 0
  · have headReady : machine.runQueue.head ∈ queues.run := by
      have chosen : nextTurn machine = some machine.runQueue.head := by
        rw [nextTurn, if_neg isEmpty, if_neg (not_not.mpr idle)]
      rcases ready_of_nextTurn holds chosen with ⟨isNull, _⟩ | ready
      · exact absurd isNull isEmpty
      · exact ready
    simp only [dispatch, nextTurn, if_neg isEmpty, ne_eq, idle,
      not_true_eq_false, if_false]
    exact fields_switchTo headReady represents page
  have nextReady := holds.next_ready idle nonEmpty
  by_cases alone : machine.currentTask = next machine.mem machine.currentTask
  · simp only [dispatch, nextTurn, if_neg isEmpty, ne_eq, idle,
      not_false_eq_true, if_true, ← alone, not_true_eq_false, if_false]
    rw [if_neg (by simp)]
    rfl
  · simp only [dispatch, nextTurn, if_neg isEmpty, ne_eq, idle,
      not_false_eq_true, if_true, alone]
    exact fields_switchTo nextReady represents page

/-- A call of `schedule` changes no field but the flags of two tasks. -/
theorem fields_schedule (holds : Dispatchable layout machine queues)
    (page : IsHeapPage task) :
    fields (schedule machine cause).mem task =
      { fields machine.mem task with
        taskSwitchedInTimeSlice := flagAfter machine cause task } := by
  by_cases idle : machine.currentTask = 0
  · have ends : ¬KeepsSlice machine cause := fun keeps => keeps.2.1 idle
    have notCurrent : task ≠ machine.currentTask := idle ▸ page.ne_null
    rw [schedule_of_idle idle, fields_dispatch holds page, flagAfter, turn,
      if_neg ends, if_neg notCurrent]
    split
    next => rfl
    next => rfl
  by_cases keeps : KeepsSlice machine cause
  · have notSyscall : ¬(cause = .syscall ∧ turn machine cause = some task) := by
      rw [keeps.1]
      simp
    have marked := fields_markTimeSlice 0#8 holds idle page
    rw [schedule_of_keeps keeps, flagAfter, if_neg notSyscall]
    apply marked.trans
    split
    next => rfl
    next => rfl
  have current : machine.currentTask ∈ queues.run ∨
      machine.currentTask = layout.dummyTask := by
    rcases holds.current with isNull | ready | ⟨isDummy, _⟩
    · exact absurd isNull idle
    · exact .inl ready
    · exact .inr isDummy
  have ready := dispatchable_markTimeSlice 0#8 holds idle
  rw [schedule_of_busy keeps idle, fields_dispatch ready page,
    nextTurn_markTimeSlice, fields_markTimeSlice 0#8 holds idle page,
    flagAfter, turn, if_neg keeps]
  split
  next =>
    split
    next => rfl
    next => rfl
  next =>
    split
    next => rfl
    next => rfl

end Schedule

/-! ## The events -/

section Events

variable {layout : Layout} {machine after : Machine} {queues : Queues}
  {front back sleep event created : List Nat} {task other iterations : Nat}
  {file : File}

/-- The sleeping calls write their own field of the current task only. -/
private theorem fields_of_moved {stored : Memory} {moved : Machine}
    {later : Queues} (holds : Represents machine queues)
    (member : task ∈ queues.all) (page : IsHeapPage other)
    (tail : AgreeOutside stored (saveSuccessor layout machine).mem
      (task + 132) 12)
    (requeued : Moved { saveSuccessor layout machine with mem := stored }
      moved queues later) :
    fields moved.mem other = fields stored other ∧
      fields (saveSuccessor layout machine).mem other =
        fields machine.mem other := by
  have saving := saveSuccessor_requeued layout holds
  have storing := Requeued.of_tail saving.represents member tail
  constructor
  · exact fields_of_linksOnly requeued.links storing.represents.pages page
  · rw [saveSuccessor]
    split
    next =>
      have below := layout.dummyTask_below
      rw [sizeofTask] at below
      exact fields_of_image (by omega)
        (storePtr_agreeOutside _ (layout.dummyTask + 4) _) page
    next => rfl

theorem fields_enterSleep (msec : Word)
    (holds : Represents machine ⟨front ++ task :: back, sleep, event⟩)
    (current : machine.currentTask = task) (otherPage : IsHeapPage other) :
    fields (enterSleep layout machine msec).mem other =
      if other = task then
        { fields machine.mem other with wakeupAfterMsec := msec }
      else fields machine.mem other := by
  have page := holds.run.pages task (by simp)
  have saving := saveSuccessor_requeued layout holds
  have same : (saveSuccessor layout machine).currentTask = task :=
    saving.undisturbed.currentTask.trans current
  have tail := setWakeupAfterMsec_tail (saveSuccessor layout machine).mem
    task msec
  have member : task ∈ Queues.all ⟨front ++ task :: back, sleep, event⟩ := by
    simp [Queues.all]
  have storing := Requeued.of_tail saving.represents member tail
  have moved := sleepReady storing.represents
  rcases fields_of_moved holds member otherPage tail moved with
    ⟨links, saved⟩
  have stored :
      fields (setWakeupAfterMsec (saveSuccessor layout machine).mem task msec)
        other = _ := fields_setMsec msec page otherPage
  rw [saved] at stored
  rw [enterSleep]
  simp only [same]
  exact links.trans stored

theorem fields_enterWait (eventType : Byte)
    (holds : Represents machine ⟨front ++ task :: back, sleep, event⟩)
    (current : machine.currentTask = task) (otherPage : IsHeapPage other) :
    fields (enterWait layout machine eventType).mem other =
      if other = task then
        { fields machine.mem other with wakeupAfterEvent := eventType }
      else fields machine.mem other := by
  have page := holds.run.pages task (by simp)
  have saving := saveSuccessor_requeued layout holds
  have same : (saveSuccessor layout machine).currentTask = task :=
    saving.undisturbed.currentTask.trans current
  have tail := setWakeupAfterEvent_tail (saveSuccessor layout machine).mem
    task eventType
  have member : task ∈ Queues.all ⟨front ++ task :: back, sleep, event⟩ := by
    simp [Queues.all]
  have storing := Requeued.of_tail saving.represents member tail
  have moved := awaitReady storing.represents
  rcases fields_of_moved holds member otherPage tail moved with
    ⟨links, saved⟩
  have stored :
      fields
        (setWakeupAfterEvent (saveSuccessor layout machine).mem task eventType)
        other = _ := fields_setEvent eventType page otherPage
  rw [saved] at stored
  rw [enterWait]
  simp only [same]
  exact links.trans stored

/-- A timer interrupt, up to its call of `schedule`. -/
theorem fields_tick (holds : Represents machine queues)
    (ran : tick iterations machine = some after) (page : IsHeapPage other) :
    fields after.mem other =
      if other ∈ visited (sleeperDue machine.mem) queues.sleep then
        slept (fields machine.mem other)
      else fields machine.mem other := by
  rcases Option.map_eq_some_iff.mp ran with ⟨⟨result, woken⟩, update, rfl⟩
  have counted : Represents
      { machine with globalCounter := machine.globalCounter + timerTickMs }
      queues :=
    ⟨holds.run, holds.sleep, holds.event, holds.nodup⟩
  have ended := schedUpdateWakeupq_eq counted update
  have effect := fields_visitSleepers counted page
  rw [← ended] at effect
  exact effect

/-- A keyboard interrupt wakes tasks which wait for the keyboard. -/
theorem fields_doIrKeyboard {status data : Byte}
    (holds : Represents machine queues)
    (ran : doIrKeyboard iterations machine status data = some after)
    (page : IsHeapPage other) :
    fields after.mem other =
      if other ∈ visited (waiterDue eventTypeKbd machine.mem) queues.event then
        notified eventTypeKbd (fields machine.mem other)
      else fields machine.mem other := by
  rcases receiveKeycode_eq machine status data with ⟨queue, received⟩
  rw [doIrKeyboard, received] at ran
  rcases Option.map_eq_some_iff.mp ran with ⟨⟨result, woken⟩, update, rfl⟩
  have accepted : Represents { machine with keycodeQueue := queue } queues :=
    ⟨holds.run, holds.sleep, holds.event, holds.nodup⟩
  have ended := schedUpdateWakeupevq_eq accepted update
  have effect := fields_visitWaiters eventTypeKbd accepted page
  rw [← ended] at effect
  exact effect

/-- The creation of a task does not reach the existing ones. -/
theorem fields_taskInit (holds : Invariant machine created queues)
    (free : 4 ≤ (freePages machine.heapAllocTable).card)
    (member : task ∈ queues.all) :
    fields (taskInit machine file).mem task = fields machine.mem task := by
  have represents : Represents (initialized machine file) queues :=
    holds.initialized_represents free
  have page := holds.represents.pages task member
  have newPage := (nextTaskPages_distinct free).heapTask
  have below := holds.below task (holds.perm.mem_iff.mp member)
  have stored : fields (initialized machine file).mem task =
      fields machine.mem task :=
    fields_of_agreeOn (holds.initialized_agreeOn free (by omega))
  have links : LinksOnly (initialized machine file).mem
      (taskInit machine file).mem
      ((nextTaskPages machine.heapAllocTable).task :: queues.run) :=
    holds.taskInit_linksOnly free
  refine (fields_of_linksOnly links ?_ page).trans stored
  intro linked inLinks
  rcases List.mem_cons.mp inLinks with rfl | ready
  · exact newPage
  · exact represents.run.pages linked ready

/-- A new task keeps what its page holds at the fields of a task. -/
theorem fields_newTask (holds : Invariant machine created queues)
    (free : 4 ≤ (freePages machine.heapAllocTable).card) :
    fields (taskInit machine file).mem
        (nextTaskPages machine.heapAllocTable).task =
      fields machine.mem (nextTaskPages machine.heapAllocTable).task := by
  have represents : Represents (initialized machine file) queues :=
    holds.initialized_represents free
  have distinct := nextTaskPages_distinct free
  have links : LinksOnly (initialized machine file).mem
      (taskInit machine file).mem
      ((nextTaskPages machine.heapAllocTable).task :: queues.run) :=
    holds.taskInit_linksOnly free
  have pages :=
    (nextTaskPages_of_heapPrefix holds.heap (holds.room_of_free free)).1
  have stored : fields (initialized machine file).mem
        (nextTaskPages machine.heapAllocTable).task =
      fields machine.mem (nextTaskPages machine.heapAllocTable).task := by
    apply fields_of_agreeOn
    refine initTaskMemory_agreeOn _ _ _ _ _ ?_ ?_ (.inr (Nat.le_refl _))
    · rw [pages]
      simp only [heapPage_eq]
      omega
    · rw [pages]
      simp only [heapPage_eq]
      omega
  refine (fields_of_linksOnly links ?_ distinct.heapTask).trans stored
  intro linked inLinks
  rcases List.mem_cons.mp inLinks with rfl | ready
  · exact distinct.heapTask
  · exact represents.run.pages linked ready

end Events

end MagicalOs.Kernel.TaskFields
