import MagicalOs.Console.KeyboardQueue
import MagicalOs.Kernel.Fairness
import MagicalOs.Library.WaitingReaders

/-!
# Tasks that wait for keys

A task which finds the key code queue empty in `get_keydata` goes to sleep until
a keyboard interrupt wakes it.  The call has left its critical section by then,
so an interrupt in between would find nobody to wake, and the traversal of the
event queue wakes no more than one of several readers.

All callers of `get_keydata` come through the gate of the system calls.  It has
cleared the interrupt flag, which stays clear up to the sleep and is clear again
when the task goes on.  A round of the loop of `get_keydata` is therefore one
step, and between a wakeup and the next round the reader cannot be interrupted.

Any number of tasks may read, among all other events of the kernel.
-/

namespace MagicalOs.Console.KeyboardReaders

open MagicalOs.Library.ByteMemory
open MagicalOs.Library.CircularBuffer
open MagicalOs.Library.TurnOrder
open MagicalOs.Library.WaitingReaders
open MagicalOs.Console.KeyboardBuffer
open MagicalOs.Console.KeyboardQueue
open MagicalOs.Kernel.HeapPages
open MagicalOs.Kernel.MachineState
open MagicalOs.Kernel.TaskStructure
open MagicalOs.Kernel.TaskCreation
open MagicalOs.Kernel.SchedQueues
open MagicalOs.Kernel.Scheduler
open MagicalOs.Kernel.TaskQueues
open MagicalOs.Kernel.SchedTraversal
open MagicalOs.Kernel.KernelRuns
open MagicalOs.Kernel.QueueInvariant
open MagicalOs.Kernel.TaskFields
open MagicalOs.Kernel.StepEffects
open MagicalOs.Kernel.WakeupDelays
open MagicalOs.Kernel.Fairness

/-! ## The key code queue in a step of the kernel -/

section KeyCodes

variable {layout : Layout} {machine after : Machine} {event : Event}
  {iterations : Nat}

/-- Only a keyboard interrupt has to do with the key code queue. -/
def keyCodesAfter (queue : KeycodeQueue) : Event → KeycodeQueue
  | .taskInit _ => queue
  | .timer => queue
  | .keyboard status data => receive queue status data
  | .wakeupAfterMsec _ => queue
  | .wakeupAfterEvent _ => queue

theorem keycodeQueue_dispatch (machine : Machine) (cause : SchedCause) :
    (dispatch machine cause).keycodeQueue = machine.keycodeQueue := by
  have switches (task : Nat) :
      (switchTo machine cause task).keycodeQueue = machine.keycodeQueue := by
    rw [switchTo]
    split
    next => rfl
    next => rfl
  rw [dispatch]
  split
  next =>
    split
    next => rfl
    next => rfl
  next =>
    split
    next =>
      split
      next => exact switches _
      next => rfl
    next => exact switches _

theorem keycodeQueue_schedule (machine : Machine) (cause : SchedCause) :
    (schedule machine cause).keycodeQueue = machine.keycodeQueue := by
  rw [schedule]
  split
  next => rfl
  next =>
    split
    next => exact keycodeQueue_dispatch _ cause
    next => exact keycodeQueue_dispatch machine cause

/-- A traversal whose visits leave the key code queue alone does so as well. -/
theorem keycodeQueue_updateLoop {queue : Machine → Queue}
    {visit : Machine → Nat → Machine} {task : Nat}
    (visits : ∀ machine task,
      (visit machine task).keycodeQueue = machine.keycodeQueue)
    (ran : updateLoop queue visit iterations machine task = some after) :
    after.keycodeQueue = machine.keycodeQueue := by
  induction iterations generalizing machine task with
  | zero => cases ran
  | succ iterations hypothesis =>
      rw [updateLoop] at ran
      split at ran
      next => exact (hypothesis ran).trans (visits machine task)
      next =>
        cases ran
        exact visits machine task

theorem keycodeQueue_visitSleeper (machine : Machine) (task : Nat) :
    (visitSleeper machine task).keycodeQueue = machine.keycodeQueue := by
  rw [visitSleeper]
  split
  next => rfl
  next => rfl

theorem keycodeQueue_visitWaiter (eventType : Byte) (machine : Machine)
    (task : Nat) :
    (visitWaiter eventType machine task).keycodeQueue =
      machine.keycodeQueue := by
  rw [visitWaiter]
  split
  next => rfl
  next => rfl

theorem keycodeQueue_schedUpdateWakeupq {outcome : Int × Machine}
    (ran : schedUpdateWakeupq iterations machine = some outcome) :
    outcome.2.keycodeQueue = machine.keycodeQueue := by
  rw [schedUpdateWakeupq] at ran
  split at ran
  next =>
    cases ran
    rfl
  next =>
    rcases Option.map_eq_some_iff.mp ran with ⟨visited, looped, rfl⟩
    exact keycodeQueue_updateLoop keycodeQueue_visitSleeper looped

theorem keycodeQueue_schedUpdateWakeupevq {outcome : Int × Machine}
    {eventType : Byte}
    (ran : schedUpdateWakeupevq iterations machine eventType = some outcome) :
    outcome.2.keycodeQueue = machine.keycodeQueue := by
  rw [schedUpdateWakeupevq] at ran
  split at ran
  next =>
    cases ran
    rfl
  next =>
    rcases Option.map_eq_some_iff.mp ran with ⟨visited, looped, rfl⟩
    exact keycodeQueue_updateLoop (keycodeQueue_visitWaiter eventType) looped

theorem keycodeQueue_doIrTimer
    (ran : doIrTimer iterations machine = some after) :
    after.keycodeQueue = machine.keycodeQueue := by
  rcases Option.map_eq_some_iff.mp ran with ⟨entering, ticked, rfl⟩
  rcases Option.map_eq_some_iff.mp ticked with ⟨outcome, updated, rfl⟩
  rw [keycodeQueue_schedule]
  have kept := keycodeQueue_schedUpdateWakeupq updated
  exact kept

theorem keycodeQueue_doIrKeyboard {status data : Byte}
    (ran : doIrKeyboard iterations machine status data = some after) :
    after.keycodeQueue = receive machine.keycodeQueue status data := by
  rcases Option.map_eq_some_iff.mp ran with ⟨outcome, updated, rfl⟩
  rw [← receiveKeycode_queue]
  exact keycodeQueue_schedUpdateWakeupevq updated

theorem keycodeQueue_taskInit (machine : Machine) (file : File) :
    (taskInit machine file).keycodeQueue = machine.keycodeQueue := by
  cases allocated : allocatePages machine.heapAllocTable with
  | mk pages heap =>
      rw [taskInit, allocated]
      rfl

theorem keycodeQueue_saveSuccessor (layout : Layout) (machine : Machine) :
    (saveSuccessor layout machine).keycodeQueue = machine.keycodeQueue := by
  rw [saveSuccessor]
  split
  next => rfl
  next => rfl

/-- What a step of the kernel does to the key code queue. -/
theorem keycodeQueue_step
    (taken : Kernel.KernelRuns.Step layout machine event after) :
    after.keycodeQueue = keyCodesAfter machine.keycodeQueue event := by
  rcases taken with ⟨_, iterations, ran⟩
  cases event with
  | taskInit file =>
      cases ran
      exact keycodeQueue_taskInit machine file
  | timer => exact keycodeQueue_doIrTimer ran
  | keyboard status data => exact keycodeQueue_doIrKeyboard ran
  | wakeupAfterMsec msec =>
      cases ran
      exact (keycodeQueue_schedule _ _).trans
        (keycodeQueue_saveSuccessor layout machine)
  | wakeupAfterEvent eventType =>
      cases ran
      exact (keycodeQueue_schedule _ _).trans
        (keycodeQueue_saveSuccessor layout machine)

end KeyCodes

/-! ## One round of `get_keydata` -/

/--
A round of the loop of `get_keydata`, and what it returns unless it has gone to
sleep.
-/
def getKeydataRound (layout : Layout) (machine : Machine) :
    Option Byte × Machine :=
  let (data, queue) := dequeue machine.keycodeQueue
  let machine := { machine with keycodeQueue := queue }
  if queue.errorStatus = 0#8 then
    (some data, machine)
  else
    (none, callWakeupAfterEvent layout machine eventTypeKbd)

/-- The machine, and the tasks which are in `get_keydata` after a sleep. -/
structure System where
  machine : Machine
  reading : Finset Nat

/-- What happens in a step. -/
inductive Label where
  | kernel (event : Event)
  | takes (data : Byte)
  | sleeps

/--
While the current task is in `get_keydata`, nothing but its next round can
happen.  Only `get_keydata` waits for the keyboard.
-/
inductive Step (layout : Layout) : System → Label → System → Prop where
  | kernel {system : System} {event : Event} {after : Machine}
      (outside : system.machine.currentTask ∉ system.reading)
      (other : event ≠ .wakeupAfterEvent eventTypeKbd)
      (taken : Kernel.KernelRuns.Step layout system.machine event after) :
      Step layout system (.kernel event)
        { machine := after, reading := system.reading }
  | takes {system : System} {data : Byte} {after : Machine}
      (busy : system.machine.currentTask ≠ 0)
      (round : getKeydataRound layout system.machine = (some data, after)) :
      Step layout system (.takes data)
        { machine := after
          reading := system.reading.erase system.machine.currentTask }
  | sleeps {system : System} {after : Machine}
      (busy : system.machine.currentTask ≠ 0)
      (round : getKeydataRound layout system.machine = (none, after)) :
      Step layout system .sleeps
        { machine := after
          reading := insert system.machine.currentTask system.reading }

/-- The systems that some interleaving leads to. -/
inductive Run (layout : Layout) (mem : Memory) : System → Prop where
  | boot : Run layout mem { machine := boot layout mem, reading := ∅ }
  | step {system after : System} {label : Label}
      (before : Run layout mem system)
      (taken : Step layout system label after) : Run layout mem after

/-! ## One round and the pending scan codes -/

section Rounds

variable {machine : Machine} {pending : List Byte} {data : Byte}

/-- A round on an empty queue goes to sleep. -/
theorem getKeydataRound_nil (layout : Layout)
    (busy : machine.currentTask ≠ 0)
    (holds : Holds (asBuffer machine.keycodeQueue) []) :
    ∃ queue after, Holds (asBuffer queue) [] ∧
      getKeydataRound layout machine = (none, after) ∧
      Kernel.KernelRuns.Step layout { machine with keycodeQueue := queue }
        (.wakeupAfterEvent eventTypeKbd) after := by
  have isEmpty := (empty_iff holds).mpr rfl
  refine ⟨(dequeue machine.keycodeQueue).2, _, ?_, ?_, busy, 0, rfl⟩
  · rw [dequeue, if_pos isEmpty]
    exact holds
  · rw [getKeydataRound, dequeue, if_pos isEmpty]
    rfl

/-- Otherwise it returns the first scan code. -/
theorem getKeydataRound_cons (layout : Layout)
    (holds : Holds (asBuffer machine.keycodeQueue) (data :: pending)) :
    ∃ queue, Holds (asBuffer queue) pending ∧
      getKeydataRound layout machine =
        (some data, { machine with keycodeQueue := queue }) := by
  have notEmpty : ¬(machine.keycodeQueue.isFull = 0#8 ∧
      machine.keycodeQueue.start = machine.keycodeQueue.end) := by
    rw [empty_iff holds]
    exact List.cons_ne_nil _ _
  have first : machine.keycodeQueue.buf machine.keycodeQueue.start = data :=
    holds.first_cell
  have popped := holds_advance holds
  refine ⟨(dequeue machine.keycodeQueue).2, ?_, ?_⟩
  · rw [dequeue, if_neg notEmpty]
    exact popped
  · rw [getKeydataRound, dequeue, if_neg notEmpty, first]
    rfl

end Rounds

/-! ## One traversal of the event queue -/

section Traversal

variable {due : Nat → Bool} {tasks : List Nat} {task : Nat}

theorem mem_woken (woken : task ∈ (wake due tasks).2) :
    task ∈ tasks ∧ due task = true := by
  cases tasks with
  | nil => cases woken
  | cons head rest =>
      rw [wake] at woken
      split at woken
      next isDue =>
        have same : task = head := List.mem_singleton.mp woken
        rw [same]
        exact ⟨List.mem_cons_self, isDue⟩
      next =>
        rcases List.mem_filter.mp woken with ⟨inRest, isDue⟩
        exact ⟨List.mem_cons_of_mem _ inRest, isDue⟩

theorem mem_kept_iff (distinct : tasks.Nodup) :
    task ∈ (wake due tasks).1 ↔
      task ∈ tasks ∧ task ∉ (wake due tasks).2 := by
  cases tasks with
  | nil => simp [wake]
  | cons head rest =>
      have apart : head ∉ rest := (List.nodup_cons.mp distinct).1
      rw [wake]
      split
      next =>
        rw [List.mem_cons, List.mem_singleton]
        constructor
        · intro inRest
          refine ⟨.inr inRest, ?_⟩
          rintro rfl
          exact apart inRest
        · rintro ⟨same | inRest, other⟩
          · exact absurd same other
          · exact inRest
      next early =>
        simp only [List.mem_cons, List.mem_filter, Bool.not_eq_true']
        constructor
        · rintro (rfl | ⟨inRest, notDue⟩)
          · exact ⟨.inl rfl, fun woken => apart woken.1⟩
          · refine ⟨.inr inRest, fun woken => ?_⟩
            rw [notDue] at woken
            cases woken.2
        · rintro ⟨same | inRest, other⟩
          · exact .inl same
          · refine .inr ⟨inRest, ?_⟩
            rw [Bool.eq_false_iff]
            exact fun isDue => other ⟨inRest, isDue⟩

/-- Somebody is woken if anybody is to be. -/
theorem exists_woken (member : task ∈ tasks) (isDue : due task = true) :
    ∃ first, first ∈ (wake due tasks).2 := by
  cases tasks with
  | nil => cases member
  | cons head rest =>
      rw [wake]
      split
      next => exact ⟨head, List.mem_singleton_self head⟩
      next early =>
        rcases List.mem_cons.mp member with rfl | inRest
        · exact absurd isDue early
        · exact ⟨task, List.mem_filter.mpr ⟨inRest, isDue⟩⟩

/-- Who is visited and stays was not to be woken. -/
theorem early_of_kept (distinct : tasks.Nodup)
    (kept : task ∈ (wake due tasks).1) (visits : task ∈ visited due tasks) :
    due task = false := by
  rcases (mem_kept_iff distinct).mp kept with ⟨_, notWoken⟩
  cases tasks with
  | nil => cases visits
  | cons head rest =>
      rw [visited] at visits
      rw [wake] at notWoken
      split at visits
      next isDue =>
        rw [if_pos isDue] at notWoken
        exact absurd visits notWoken
      next early =>
        rw [if_neg early] at notWoken
        rcases List.mem_cons.mp visits with rfl | inRest
        · exact Bool.eq_false_iff.mpr early
        · rw [Bool.eq_false_iff]
          exact fun isDue =>
            notWoken (List.mem_filter.mpr ⟨inRest, isDue⟩)

end Traversal

/-! ## The waiting room of a system -/

/-- The readers of a system, as the readers of a waiting room. -/
def room (system : System) (queues : Queues) (pending : List Byte) :
    Room Nat Byte where
  items := pending
  asleep := system.reading.filter (· ∈ queues.event)
  woken := system.reading.filter (· ∈ queues.run)

/-- A reader is ready or waits, and only readers wait for the keyboard. -/
structure Shows (system : System) (created : List Nat) (queues : Queues)
    (pending : List Byte) : Prop where
  invariant : Invariant system.machine created queues
  holds : Holds (asBuffer system.machine.keycodeQueue) pending
  present : ∀ task ∈ system.reading,
    task ∈ queues.run ∨ task ∈ queues.event
  waiting : ∀ task ∈ queues.event, task ∈ system.reading ↔
    wakeupAfterEvent system.machine.mem task = eventTypeKbd

section Steps

variable {layout : Layout} {mem : Memory} {system after : System}
  {machine : Machine} {created creates : List Nat} {queues later : Queues}
  {pending : List Byte} {event : Event} {label : Label} {data : Byte}

theorem room_congr
    (run : ∀ task ∈ system.reading, task ∈ later.run ↔ task ∈ queues.run)
    (event : ∀ task ∈ system.reading,
      task ∈ later.event ↔ task ∈ queues.event) :
    room { machine, reading := system.reading } later pending =
      room system queues pending := by
  ext task
  · rfl
  · simp only [room, Finset.mem_filter]
    exact and_congr_right (event task)
  · simp only [room, Finset.mem_filter]
    exact and_congr_right (run task)

/-- What a step that does not concern the readers leaves behind. -/
structure Unconcerned (system : System) (machine : Machine)
    (queues later : Queues) : Prop where
  run : ∀ task ∈ system.reading, task ∈ later.run ↔ task ∈ queues.run
  event : ∀ task ∈ system.reading, task ∈ later.event ↔ task ∈ queues.event
  waiting : ∀ task ∈ later.event, task ∈ system.reading ↔
    wakeupAfterEvent machine.mem task = eventTypeKbd

theorem Shows.unconcerned (shows : Shows system created queues pending)
    (invariant : Invariant machine creates later)
    (codes : machine.keycodeQueue = system.machine.keycodeQueue)
    (others : Unconcerned system machine queues later) :
    Shows { machine, reading := system.reading } creates later pending ∧
      room { machine, reading := system.reading } later pending =
        room system queues pending := by
  refine ⟨⟨invariant, ?_, ?_, others.waiting⟩,
    room_congr others.run others.event⟩
  · rw [codes]
    exact shows.holds
  · intro task reads
    rw [others.run task reads, others.event task reads]
    exact shows.present task reads

theorem Shows.mem_all (shows : Shows system created queues pending)
    {task : Nat} (reads : task ∈ system.reading) : task ∈ queues.all := by
  rw [Queues.all, List.mem_append, List.mem_append]
  rcases shows.present task reads with ready | waits
  · exact .inl ready
  · exact .inr (.inr waits)

/-- A reader is no sleeper. -/
theorem Shows.not_asleep (shows : Shows system created queues pending)
    {task : Nat} (reads : task ∈ system.reading) : task ∉ queues.sleep := by
  intro sleeps
  have nodup := shows.invariant.represents.nodup
  rcases shows.present task reads with ready | waits
  · exact List.disjoint_of_nodup_append nodup ready
      (List.mem_append_left _ sleeps)
  · exact List.disjoint_of_nodup_append (List.nodup_append.mp nodup).2.1
      sleeps waits

theorem unconcerned_taskInit {file : File}
    (shows : Shows system created queues pending)
    (taken : Kernel.KernelRuns.Step layout system.machine (.taskInit file)
      machine) :
    ∃ creates later, Invariant machine creates later ∧
      Unconcerned system machine queues later := by
  rcases taskInit_effect shows.invariant taken with
    ⟨invariant, _, _, _, fresh, effect⟩
  refine ⟨_, _, invariant, ?_, fun _ _ => Iff.rfl, ?_⟩
  · intro task reads
    have known : task ≠ newTask system.machine := by
      rintro rfl
      exact fresh (shows.mem_all reads)
    simp [known]
  · intro task waits
    have known : task ∈ queues.all := by
      simp [Queues.all, show task ∈ queues.event from waits]
    have same := congrArg Fields.wakeupAfterEvent (effect task (.inl known))
    rw [show wakeupAfterEvent machine.mem task = _ from same]
    exact shows.waiting task waits

theorem unconcerned_timer (shows : Shows system created queues pending)
    (taken : Kernel.KernelRuns.Step layout system.machine .timer machine) :
    ∃ creates later, Invariant machine creates later ∧
      Unconcerned system machine queues later := by
  rcases timer_effect shows.invariant taken with
    ⟨entering, _, _, _, _, _, before, invariant, _, effect⟩
  refine ⟨_, _, invariant, ?_, fun _ _ => Iff.rfl, ?_⟩
  · intro task reads
    have notWoken : task ∉
        (wake (sleeperDue system.machine.mem) queues.sleep).2 :=
      fun woken => shows.not_asleep reads (mem_woken woken).1
    rw [wokenSleepers, List.mem_append, or_iff_left notWoken]
  · intro task waits
    have page : IsHeapPage task :=
      shows.invariant.represents.event.pages task waits
    have first := congrArg Fields.wakeupAfterEvent (effect task page)
    have second := congrArg Fields.wakeupAfterEvent (before task page)
    have same : wakeupAfterEvent machine.mem task =
        wakeupAfterEvent system.machine.mem task := by
      apply first.trans
      apply second.trans
      split
      next => rfl
      next => rfl
    rw [same]
    exact shows.waiting task waits

/-- Another task than a reader leaves the run queue. -/
theorem mem_without {front back : List Nat} {current task : Nat}
    (other : task ≠ current) :
    task ∈ front ++ back ↔ task ∈ front ++ current :: back := by
  simp [other]

theorem unconcerned_sleep {msec : Word}
    (shows : Shows system created queues pending)
    (outside : system.machine.currentTask ∉ system.reading)
    (taken : Kernel.KernelRuns.Step layout system.machine
      (.wakeupAfterMsec msec) machine) :
    ∃ creates later, Invariant machine creates later ∧
      Unconcerned system machine queues later := by
  rcases queues with ⟨run, sleep, waits⟩
  rcases sleep_effect shows.invariant taken with
    ⟨front, back, rfl, invariant, _, _, effect⟩
  refine ⟨_, _, invariant, ?_, fun _ _ => Iff.rfl, ?_⟩
  · intro task reads
    apply mem_without
    rintro rfl
    exact outside reads
  · intro task waits
    have page : IsHeapPage task :=
      shows.invariant.represents.event.pages task waits
    have same := congrArg Fields.wakeupAfterEvent (effect task page)
    rw [show wakeupAfterEvent machine.mem task = _ from same]
    exact shows.waiting task waits

theorem unconcerned_wait {eventType : Byte}
    (shows : Shows system created queues pending)
    (outside : system.machine.currentTask ∉ system.reading)
    (other : eventType ≠ eventTypeKbd)
    (taken : Kernel.KernelRuns.Step layout system.machine
      (.wakeupAfterEvent eventType) machine) :
    ∃ creates later, Invariant machine creates later ∧
      Unconcerned system machine queues later := by
  rcases queues with ⟨run, sleep, waits⟩
  rcases wait_effect shows.invariant taken with
    ⟨front, back, rfl, invariant, _, _, effect⟩
  have apart : ∀ task ∈ system.reading,
      task ≠ system.machine.currentTask := by
    rintro task reads rfl
    exact outside reads
  refine ⟨_, _, invariant, ?_, ?_, ?_⟩
  · exact fun task reads => mem_without (apart task reads)
  · intro task reads
    simp [apart task reads]
  · intro task member
    have page : IsHeapPage task :=
      invariant.represents.event.pages task member
    have field := congrArg Fields.wakeupAfterEvent (effect task page)
    rw [show wakeupAfterEvent machine.mem task = _ from field]
    change _ ↔ (if task = system.machine.currentTask then eventType
      else wakeupAfterEvent system.machine.mem task) = eventTypeKbd
    split
    next current =>
      rw [current]
      exact iff_of_false outside other
    next different =>
      rcases List.mem_append.mp member with waits | last
      · exact shows.waiting task waits
      · exact absurd (List.mem_singleton.mp last) different

/-- A keyboard interrupt brings at most one scan code, -/
theorem holds_receive {queue : KeycodeQueue}
    (holds : Holds (asBuffer queue) pending) (status data : Byte) :
    ∃ item : List Byte, item.length ≤ 1 ∧
      Holds (asBuffer (receive queue status data)) (pending ++ item) := by
  have same : Holds (asBuffer queue) (pending ++ []) := by
    rw [List.append_nil]
    exact holds
  rw [receive]
  split
  next =>
    have stored := holds_enqueue holds data
    by_cases free : pending.length < queueBufSize
    · rw [if_pos free] at stored
      exact ⟨[data], Nat.le_refl 1, stored⟩
    · rw [if_neg free, ← List.append_nil pending] at stored
      exact ⟨[], Nat.zero_le 1, stored⟩
  next => exact ⟨[], Nat.zero_le 1, same⟩

/-- The readers that a keyboard interrupt wakes. -/
def calledReaders (system : System) (queues : Queues) : List Nat :=
  (wake (waiterDue eventTypeKbd system.machine.mem) queues.event).2

theorem Shows.distinct (shows : Shows system created queues pending) :
    queues.event.Nodup := by
  have nodup := shows.invariant.represents.nodup
  exact (List.nodup_append.mp (List.nodup_append.mp nodup).2.1).2.1

theorem Shows.due_iff (shows : Shows system created queues pending)
    {task : Nat} (waits : task ∈ queues.event) :
    waiterDue eventTypeKbd system.machine.mem task = true ↔
      task ∈ system.reading := by
  rw [shows.waiting task waits, waiterDue, decide_eq_true_iff]

theorem Shows.of_called (shows : Shows system created queues pending)
    {task : Nat} (called : task ∈ calledReaders system queues) :
    task ∈ queues.event ∧ task ∈ system.reading := by
  rcases mem_woken called with ⟨waits, isDue⟩
  exact ⟨waits, (shows.due_iff waits).mp isDue⟩

theorem Shows.mem_event (shows : Shows system created queues pending)
    {task : Nat} :
    task ∈ (wokenWaiters system.machine eventTypeKbd queues).event ↔
      task ∈ queues.event ∧ task ∉ calledReaders system queues :=
  mem_kept_iff shows.distinct

theorem mem_run_keyboard {task : Nat} :
    task ∈ (wokenWaiters system.machine eventTypeKbd queues).run ↔
      task ∈ queues.run ∨ task ∈ calledReaders system queues :=
  List.mem_append

theorem Shows.room_keyboard (shows : Shows system created queues pending)
    (item : List Byte) :
    room { machine, reading := system.reading }
        (wokenWaiters system.machine eventTypeKbd queues) (pending ++ item) =
      { items := pending ++ item
        asleep := (room system queues pending).asleep \
          (calledReaders system queues).toFinset
        woken := (room system queues pending).woken ∪
          (calledReaders system queues).toFinset } := by
  ext task
  · rfl
  · simp only [room, Finset.mem_filter, Finset.mem_sdiff, List.mem_toFinset,
      shows.mem_event, and_assoc]
  · simp only [room, Finset.mem_filter, Finset.mem_union, List.mem_toFinset,
      mem_run_keyboard]
    constructor
    · rintro ⟨reads, ready | called⟩
      · exact .inl ⟨reads, ready⟩
      · exact .inr called
    · rintro (⟨reads, ready⟩ | called)
      · exact ⟨reads, .inl ready⟩
      · exact ⟨(shows.of_called called).2, .inr called⟩

/-- and wakes a reader if one is asleep. -/
theorem Shows.keyboard {status data : Byte}
    (shows : Shows system created queues pending)
    (taken : Kernel.KernelRuns.Step layout system.machine
      (.keyboard status data) machine) :
    ∃ later item,
      Shows { machine, reading := system.reading } created later
        (pending ++ item) ∧
      Library.WaitingReaders.Step (room system queues pending)
        (room { machine, reading := system.reading } later
          (pending ++ item)) := by
  rcases keyboard_effect shows.invariant taken with ⟨invariant, _, effect⟩
  rcases holds_receive shows.holds status data with ⟨item, single, received⟩
  refine ⟨_, item, ⟨invariant, ?_, ?_, ?_⟩, ?_⟩
  · rw [keycodeQueue_step taken]
    exact received
  · intro task reads
    rw [shows.mem_event, mem_run_keyboard]
    rcases shows.present task reads with ready | waits
    · exact .inl (.inl ready)
    · by_cases called : task ∈ calledReaders system queues
      · exact .inl (.inr called)
      · exact .inr ⟨waits, called⟩
  · intro task kept
    have waits := (shows.mem_event.mp kept).1
    have page : IsHeapPage task :=
      shows.invariant.represents.event.pages task waits
    have same : fields machine.mem task = fields system.machine.mem task := by
      rw [effect task page]
      split
      next visits =>
        have early := early_of_kept shows.distinct kept visits
        rw [waiterDue, decide_eq_false_iff_not] at early
        exact if_neg early
      next => rfl
    have field := congrArg Fields.wakeupAfterEvent same
    rw [show wakeupAfterEvent machine.mem task = _ from field]
    exact shows.waiting task waits
  · rw [shows.room_keyboard]
    apply Library.WaitingReaders.Step.arrives single
    · intro task called
      rcases shows.of_called (List.mem_toFinset.mp called) with ⟨waits, reads⟩
      exact Finset.mem_filter.mpr ⟨reads, waits⟩
    · rintro ⟨task, asleep⟩
      rcases Finset.mem_filter.mp asleep with ⟨reads, waits⟩
      rcases exists_woken waits ((shows.due_iff waits).mpr reads) with
        ⟨first, called⟩
      exact ⟨first, List.mem_toFinset.mpr called⟩

/-- The key code queue does not matter to the queues of tasks. -/
theorem invariant_withKeycodeQueue (holds : Invariant machine created queues)
    (queue : KeycodeQueue) :
    Invariant { machine with keycodeQueue := queue } created queues where
  represents :=
    ⟨holds.represents.run, holds.represents.sleep, holds.represents.event,
      holds.represents.nodup⟩
  current := holds.current
  perm := holds.perm
  heap := holds.heap
  room := holds.room
  below := holds.below

/-- The current task is ready, so it does not wait. -/
theorem Shows.current_not_waiting (shows : Shows system created queues pending)
    (busy : system.machine.currentTask ≠ 0) :
    system.machine.currentTask ∉ queues.event :=
  fun waits => List.disjoint_of_nodup_append
    shows.invariant.represents.nodup
    (shows.invariant.current.resolve_left busy)
    (List.mem_append_right _ waits)

theorem room_erase (pending rest : List Byte)
    (notWaiting : system.machine.currentTask ∉ queues.event) :
    room
        { machine
          reading := system.reading.erase system.machine.currentTask }
        queues rest =
      { room system queues pending with
        items := rest
        woken := (room system queues pending).woken.erase
          system.machine.currentTask } := by
  ext task
  · rfl
  · simp only [room, Finset.mem_filter, Finset.mem_erase]
    constructor
    · rintro ⟨⟨_, reads⟩, waits⟩
      exact ⟨reads, waits⟩
    · rintro ⟨reads, waits⟩
      refine ⟨⟨?_, reads⟩, waits⟩
      rintro rfl
      exact notWaiting waits
  · simp only [room, Finset.mem_filter, Finset.mem_erase, and_assoc]

/-- A round which returns takes the first scan code. -/
theorem Shows.takes (shows : Shows system created queues pending)
    (busy : system.machine.currentTask ≠ 0)
    (round : getKeydataRound layout system.machine = (some data, machine)) :
    ∃ rest, pending = data :: rest ∧
      Shows
        { machine
          reading := system.reading.erase system.machine.currentTask }
        created queues rest ∧
      Library.WaitingReaders.Step (room system queues pending)
        (room
          { machine
            reading := system.reading.erase system.machine.currentTask }
          queues rest) := by
  have notWaiting := shows.current_not_waiting busy
  have holds := shows.holds
  cases pending with
  | nil =>
      rcases getKeydataRound_nil layout busy holds with
        ⟨queue, _, _, sleeps, _⟩
      rw [round] at sleeps
      cases congrArg Prod.fst sleeps
  | cons first rest =>
      rcases getKeydataRound_cons layout holds with
        ⟨queue, popped, returns⟩
      rw [round] at returns
      cases returns
      refine ⟨rest, rfl, ⟨invariant_withKeycodeQueue shows.invariant queue,
        popped, ?_, ?_⟩, ?_⟩
      · exact fun task reads =>
          shows.present task (Finset.mem_of_mem_erase reads)
      · intro task waits
        have other : task ≠ system.machine.currentTask := by
          rintro rfl
          exact notWaiting waits
        rw [Finset.mem_erase, and_iff_right other]
        exact shows.waiting task waits
      · rw [room_erase (data :: rest) rest notWaiting]
        exact .takes _ rfl fun asleep =>
          notWaiting (Finset.mem_filter.mp asleep).2

theorem room_insert {front back sleep waits : List Nat}
    (left : system.machine.currentTask ∉ front ++ back) :
    room
        { machine
          reading := insert system.machine.currentTask system.reading }
        ⟨front ++ back, sleep, waits ++ [system.machine.currentTask]⟩
        pending =
      { room system ⟨front ++ system.machine.currentTask :: back, sleep, waits⟩
          pending with
        asleep := insert system.machine.currentTask
          (system.reading.filter (· ∈ waits))
        woken := (system.reading.filter
          (· ∈ front ++ system.machine.currentTask :: back)).erase
            system.machine.currentTask } := by
  ext task
  · rfl
  · by_cases current : task = system.machine.currentTask
    · simp [room, current]
    · simp [room, current]
  · by_cases current : task = system.machine.currentTask
    · rw [current]
      simp only [room, Finset.mem_filter, Finset.mem_erase]
      exact iff_of_false (fun member => left member.2)
        fun member => member.1 rfl
    · simp [room, current]

/-- A round which goes to sleep has found no scan code. -/
theorem Shows.sleeps (shows : Shows system created queues pending)
    (busy : system.machine.currentTask ≠ 0)
    (round : getKeydataRound layout system.machine = (none, machine)) :
    ∃ creates later,
      Shows
        { machine
          reading := insert system.machine.currentTask system.reading }
        creates later pending ∧
      Library.WaitingReaders.Step (room system queues pending)
        (room
          { machine
            reading := insert system.machine.currentTask system.reading }
          later pending) := by
  have notWaiting := shows.current_not_waiting busy
  have holds := shows.holds
  cases pending with
  | cons first rest =>
      rcases getKeydataRound_cons layout holds with
        ⟨queue, _, returns⟩
      rw [round] at returns
      cases congrArg Prod.fst returns
  | nil =>
      rcases getKeydataRound_nil layout busy holds with
        ⟨queue, _, empty, waits, taken⟩
      rw [round] at waits
      cases waits
      rcases queues with ⟨run, sleep, event⟩
      rcases wait_effect (invariant_withKeycodeQueue shows.invariant queue)
        taken with ⟨front, back, split, invariant, _, _, effect⟩
      have inRun : run = front ++ system.machine.currentTask :: back := split
      subst inRun
      have left : system.machine.currentTask ∉ front ++ back := by
        have nodup := List.Nodup.of_append_left
          shows.invariant.represents.nodup
        exact (List.nodup_middle.mp nodup).notMem
      refine ⟨_, _, ⟨invariant, ?_, ?_, ?_⟩, ?_⟩
      · rw [keycodeQueue_step taken]
        exact empty
      · intro task reads
        rcases Finset.mem_insert.mp reads with rfl | reads
        · exact .inr (List.mem_append_right _ (List.mem_singleton_self _))
        · by_cases current : task = system.machine.currentTask
          · rw [current]
            exact .inr (List.mem_append_right _ (List.mem_singleton_self _))
          · rcases shows.present task reads with ready | waits
            · exact .inl ((mem_without current).mpr ready)
            · exact .inr (List.mem_append_left _ waits)
      · intro task member
        have page : IsHeapPage task :=
          invariant.represents.event.pages task member
        have field := congrArg Fields.wakeupAfterEvent (effect task page)
        rw [show wakeupAfterEvent _ task = _ from field]
        change _ ↔ (if task = system.machine.currentTask then eventTypeKbd
          else wakeupAfterEvent system.machine.mem task) = eventTypeKbd
        rw [Finset.mem_insert]
        split
        next current => exact iff_of_true (.inl current) rfl
        next different =>
          rw [or_iff_right different]
          rcases List.mem_append.mp member with waits | last
          · exact shows.waiting task waits
          · exact absurd (List.mem_singleton.mp last) different
      · rw [room_insert left]
        exact .sleeps _ rfl fun asleep =>
          notWaiting (Finset.mem_filter.mp asleep).2

theorem Shows.kernel (shows : Shows system created queues pending)
    (outside : system.machine.currentTask ∉ system.reading)
    (other : event ≠ .wakeupAfterEvent eventTypeKbd)
    (taken : Kernel.KernelRuns.Step layout system.machine event machine) :
    ∃ creates later item,
      Shows { machine, reading := system.reading } creates later
        (pending ++ item) ∧
      Relation.ReflTransGen Library.WaitingReaders.Step
        (room system queues pending)
        (room { machine, reading := system.reading } later
          (pending ++ item)) := by
  have codes := keycodeQueue_step taken
  have unconcerned : ∀ {creates later},
      machine.keycodeQueue = system.machine.keycodeQueue →
      Invariant machine creates later →
      Unconcerned system machine queues later →
      ∃ creates later item,
        Shows { machine, reading := system.reading } creates later
          (pending ++ item) ∧
        Relation.ReflTransGen Library.WaitingReaders.Step
          (room system queues pending)
          (room { machine, reading := system.reading } later
            (pending ++ item)) := by
    intro creates later codes invariant others
    rcases shows.unconcerned invariant codes others with ⟨showsAfter, same⟩
    refine ⟨creates, later, [], ?_, ?_⟩
    · rw [List.append_nil]
      exact showsAfter
    · rw [List.append_nil, same]
  cases event with
  | taskInit file =>
      rcases unconcerned_taskInit shows taken with ⟨_, _, invariant, others⟩
      exact unconcerned codes invariant others
  | timer =>
      rcases unconcerned_timer shows taken with ⟨_, _, invariant, others⟩
      exact unconcerned codes invariant others
  | keyboard status data =>
      rcases shows.keyboard taken with ⟨later, item, showsAfter, arrives⟩
      exact ⟨created, later, item, showsAfter, .single arrives⟩
  | wakeupAfterMsec msec =>
      rcases unconcerned_sleep shows outside taken with
        ⟨_, _, invariant, others⟩
      exact unconcerned codes invariant others
  | wakeupAfterEvent eventType =>
      have differs : eventType ≠ eventTypeKbd := by
        rintro rfl
        exact other rfl
      rcases unconcerned_wait shows outside differs taken with
        ⟨_, _, invariant, others⟩
      exact unconcerned codes invariant others

/-- Every step of the system is one of its waiting room, or none. -/
theorem Shows.step (shows : Shows system created queues pending)
    (taken : Step layout system label after) :
    ∃ creates later remaining, Shows after creates later remaining ∧
      Relation.ReflTransGen Library.WaitingReaders.Step
        (room system queues pending) (room after later remaining) := by
  cases taken with
  | kernel outside other taken =>
      rcases shows.kernel outside other taken with
        ⟨creates, later, item, showsAfter, steps⟩
      exact ⟨creates, later, _, showsAfter, steps⟩
  | takes busy round =>
      rcases shows.takes busy round with ⟨rest, _, showsAfter, taken⟩
      exact ⟨created, queues, rest, showsAfter, .single taken⟩
  | sleeps busy round =>
      rcases shows.sleeps busy round with ⟨creates, later, showsAfter, taken⟩
      exact ⟨creates, later, pending, showsAfter, .single taken⟩

theorem shows_boot (layout : Layout) (mem : Memory) :
    Shows { machine := boot layout mem, reading := ∅ } [] ⟨[], [], []⟩ [] where
  invariant := boot_invariant layout mem
  holds :=
    ⟨Nat.zero_le _, rfl, by simp [asBuffer, boot, kernTaskInit, staticMachine,
      conInit], fun index inList => absurd inList (Nat.not_lt_zero index)⟩
  present := fun task reads => absurd reads (Finset.notMem_empty task)
  waiting := fun task waits => absurd waits List.not_mem_nil

/-- Every run leads through the waiting room. -/
theorem Run.shows (run : Run layout mem system) :
    ∃ created queues pending, Shows system created queues pending ∧
      Relation.ReflTransGen Library.WaitingReaders.Step Room.empty
        (room system queues pending) := by
  induction run with
  | boot => exact ⟨[], _, [], shows_boot layout mem, .refl⟩
  | step before taken hypothesis =>
      rcases hypothesis with ⟨_, _, _, shows, steps⟩
      rcases shows.step taken with ⟨creates, later, remaining, after, more⟩
      exact ⟨creates, later, remaining, after, steps.trans more⟩

end Steps

/--
In every interleaving of rounds of `get_keydata` by any number of tasks with the
other events of the kernel, a reader is asleep only if there is a woken reader
for each pending scan code.
-/
theorem pending_attended {layout : Layout} {mem : Memory} {system : System}
    {ready waiting : List Nat} {pending : List Byte}
    (run : Run layout mem system)
    (runRing : QueueRing system.machine.mem system.machine.runQueue ready)
    (eventRing : QueueRing system.machine.mem system.machine.wakeupEventQueue
      waiting)
    (holds : Holds (asBuffer system.machine.keycodeQueue) pending)
    (asleep : ∃ task ∈ system.reading, task ∈ waiting) :
    pending.length ≤ (system.reading.filter (· ∈ ready)).card := by
  rcases run.shows with ⟨created, queues, items, shows, steps⟩
  have represents := shows.invariant.represents
  have attended := attended_of_steps steps
  rw [holds.unique shows.holds, runRing.unique represents.run]
  apply attended.enough
  rcases asleep with ⟨task, reads, waits⟩
  rw [eventRing.unique represents.event] at waits
  exact ⟨task, Finset.mem_filter.mpr ⟨reads, waits⟩⟩

/-! ## How long a scan code is pending -/

/-- The number of timer interrupts in a step. -/
def Label.ticks : Label → Nat
  | .kernel event => Kernel.Fairness.ticks event
  | .takes _ => 0
  | .sleeps => 0

/--
Steps in which no scan code is taken, with the number of timer interrupts and of
tasks which joined the run queue.
-/
inductive Untaken (layout : Layout) (start : System) :
    Nat → Nat → System → Prop where
  | start : Untaken layout start 0 0 start
  | step {timers joined : Nat} {system after : System} {label : Label}
      (before : Untaken layout start timers joined system)
      (taken : Step layout system label after)
      (untaken : ∀ data, label ≠ .takes data) :
      Untaken layout start (timers + label.ticks)
        (joined + growth system.machine after.machine) after

/-- A reader is about to take a scan code, or waits for its turn to do so. -/
structure Called (task most timers joined : Nat) (system : System)
    (created : List Nat) (queues : Queues) (pending : List Byte) : Prop where
  shows : Shows system created queues pending
  some : pending ≠ []
  reads : task ∈ system.reading
  turn : system.machine.currentTask = task ∧
      timers ≤ most + 1 + 2 * joined ∨
    ∃ less, Awaits task less system.machine ∧
      less + timers ≤ most + 2 * joined

section Delay

variable {layout : Layout} {mem : Memory} {start system after : System}
  {created ready : List Nat} {queues : Queues} {pending : List Byte}
  {machine : Machine} {event : Event} {label : Label}
  {task most timers joined : Nat}

theorem ticks_le (event : Event) : Kernel.Fairness.ticks event ≤ 1 := by
  rw [Kernel.Fairness.ticks]
  split
  next => exact Nat.le_refl 1
  next => exact Nat.zero_le 1

/-- No round goes to sleep while a scan code is pending. -/
theorem Shows.round (shows : Shows system created queues pending)
    (layout : Layout) (some : pending ≠ []) :
    ∃ data machine,
      getKeydataRound layout system.machine = (.some data, machine) := by
  have holds := shows.holds
  cases pending with
  | nil => exact absurd rfl some
  | cons data rest =>
      rcases getKeydataRound_cons layout holds with
        ⟨queue, _, returns⟩
      exact ⟨data, _, returns⟩

/-- A step of the kernel brings the reader nearer. -/
theorem Called.kernel
    (called : Called task most timers joined system created queues pending)
    (outside : system.machine.currentTask ∉ system.reading)
    (other : event ≠ .wakeupAfterEvent eventTypeKbd)
    (taken : Kernel.KernelRuns.Step layout system.machine event machine) :
    ∃ creates later remaining,
      Called task most (timers + Kernel.Fairness.ticks event)
        (joined + growth system.machine machine)
        { machine, reading := system.reading } creates later remaining := by
  rcases called with ⟨shows, some, reads, turn⟩
  rcases shows.kernel outside other taken with
    ⟨creates, later, item, showsAfter, _⟩
  have notCurrent : system.machine.currentTask ≠ task := by
    rintro rfl
    exact outside reads
  rcases turn.resolve_left fun both => notCurrent both.1 with
    ⟨less, awaits, below⟩
  refine ⟨creates, later, _, showsAfter, ?_, reads, ?_⟩
  · exact List.append_ne_nil_of_left_ne_nil some item
  · by_cases current : machine.currentTask = task
    · have tick := ticks_le event
      exact .inl ⟨current, by omega⟩
    · rcases awaits.step taken current with ⟨later, awaitsAfter, shorter⟩
      exact .inr ⟨later, awaitsAfter, by omega⟩

/-- So does every step in which no scan code is taken. -/
theorem Called.step
    (called : Called task most timers joined system created queues pending)
    (taken : Step layout system label after)
    (untaken : ∀ data, label ≠ .takes data) :
    ∃ creates later remaining,
      Called task most (timers + label.ticks)
        (joined + growth system.machine after.machine) after creates later
        remaining := by
  cases taken with
  | takes busy round => exact absurd rfl (untaken _)
  | sleeps busy round =>
      rcases called.shows.round layout called.some with
        ⟨_, _, returns⟩
      rw [round] at returns
      cases congrArg Prod.fst returns
  | kernel outside other taken => exact called.kernel outside other taken

theorem Untaken.called
    (untaken : Untaken layout start timers joined system)
    (called : Called task most 0 0 start created queues pending) :
    ∃ creates later remaining,
      Called task most timers joined system creates later remaining := by
  induction untaken with
  | start => exact ⟨_, _, _, called⟩
  | step before taken untaken hypothesis =>
      rcases hypothesis with ⟨_, _, _, called⟩
      exact called.step taken untaken

/-- The system is never stuck. -/
theorem Shows.progress (shows : Shows system created queues pending)
    (some : pending ≠ []) :
    ∃ label after, Step layout system label after := by
  by_cases reads : system.machine.currentTask ∈ system.reading
  · have page : IsHeapPage system.machine.currentTask :=
      shows.invariant.represents.pages _ (shows.mem_all reads)
    rcases shows.round layout some with ⟨data, machine, returns⟩
    exact ⟨_, _, .takes page.ne_null returns⟩
  · have timer : ∃ machine,
        Kernel.KernelRuns.Step layout system.machine .timer machine :=
      shows.invariant.progress trivial
    rcases timer with ⟨machine, taken⟩
    refine ⟨_, _, .kernel reads ?_ taken⟩
    intro same
    cases same

end Delay

/--
If a task is in `get_keydata` and scan codes are pending, then a reader which is
ready will take one, unless another task does: no more timer interrupts come
before than two for each task in front of it and for each one which joins the
run queue, and two more.
-/
theorem scanCode_taken {layout : Layout} {mem : Memory} {start : System}
    {ready : List Nat} {pending : List Byte}
    (run : Run layout mem start) (reader : start.reading.Nonempty)
    (runRing : QueueRing start.machine.mem start.machine.runQueue ready)
    (holds : Holds (asBuffer start.machine.keycodeQueue) pending)
    (some : pending ≠ []) :
    ∃ task ∈ start.reading, task ∈ ready ∧
      ∀ timers joined system, Untaken layout start timers joined system →
        (∃ label after, Step layout system label after) ∧
          timers ≤
            2 * (turnOrder ready start.machine.currentTask).idxOf task + 2 +
              2 * joined := by
  rcases run.shows with ⟨created, queues, items, shows, steps⟩
  have represents := shows.invariant.represents
  have attended := attended_of_steps steps
  have same : items = pending := shows.holds.unique holds
  have sameRun : queues.run = ready := represents.run.unique runRing
  subst same sameRun
  have woken : ∃ task ∈ start.reading, task ∈ queues.run := by
    by_contra nobody
    push Not at nobody
    rcases reader with ⟨task, reads⟩
    have waits := (shows.present task reads).resolve_left (nobody task reads)
    have enough := attended.enough
      ⟨task, Finset.mem_filter.mpr ⟨reads, waits⟩⟩
    have none : (room start queues items).woken = ∅ :=
      Finset.filter_eq_empty_iff.mpr fun {task} reads => nobody task reads
    rw [none, Finset.card_empty, Nat.le_zero, List.length_eq_zero_iff] at enough
    exact some enough
  rcases woken with ⟨task, reads, isReady⟩
  refine ⟨task, reads, isReady, fun timers joined system untaken => ?_⟩
  have called : Called task
      (2 * (turnOrder queues.run start.machine.currentTask).idxOf task + 1) 0 0
      start created queues items := by
    refine ⟨shows, some, reads, ?_⟩
    by_cases current : start.machine.currentTask = task
    · exact .inl ⟨current, Nat.zero_le _⟩
    · have mark := marked_le start.machine
      refine .inr ⟨_, ⟨created, queues, shows.invariant, isReady,
        fun same => current same.symm, Nat.add_le_add_left mark _⟩, ?_⟩
      exact Nat.le_refl _
  rcases untaken.called called with ⟨_, _, _, after⟩
  refine ⟨after.shows.progress after.some, ?_⟩
  rcases after.turn with ⟨_, below⟩ | ⟨less, _, below⟩
  · omega
  · omega

/-! ## A sample run -/

/-- A task has been started and has found the key code queue empty. -/
structure OneReader (system : System) (task : Nat) : Prop where
  run : Run Layout.sample (fun _ => 0#8) system
  reading : system.reading = {task}
  invariant : Invariant system.machine [task] ⟨[], [], [task]⟩
  holds : Holds (asBuffer system.machine.keycodeQueue) []
  idle : system.machine.currentTask = 0

theorem oneReader : ∃ system task, OneReader system task := by
  rcases (Known.boot Layout.sample fun _ => 0#8).creates (by simp)
    { name := 0x12000, dataBaseAddr := 0x12020 } with
    ⟨first, task, creation, created, page, idle⟩
  rcases created.starts idle with ⟨second, tick, started, current⟩
  have run : Run Layout.sample (fun _ => 0#8)
      { machine := second, reading := ∅ } := by
    apply Run.step (.step .boot (.kernel (Finset.notMem_empty _) _ creation))
      (.kernel (Finset.notMem_empty _) _ tick)
    · intro same
      cases same
    · intro same
      cases same
  have empty : Holds (asBuffer second.keycodeQueue) [] := by
    rw [keycodeQueue_step tick, keyCodesAfter, keycodeQueue_step creation]
    exact (shows_boot Layout.sample fun _ => 0#8).holds
  have busy : second.currentTask ≠ 0 := by
    rw [current]
    exact page.ne_null
  rcases getKeydataRound_nil Layout.sample busy empty with
    ⟨queue, third, still, round, waits⟩
  rcases wait_effect (invariant_withKeycodeQueue started.invariant queue)
    waits with ⟨front, back, split, invariant, leaves, _, _⟩
  have nobody : front = [] ∧ back = [] := by
    have length := congrArg List.length split
    simp only [List.length_append, List.length_cons, List.length_nil] at length
    exact ⟨List.length_eq_zero_iff.mp (by omega),
      List.length_eq_zero_iff.mp (by omega)⟩
  rcases nobody with ⟨rfl, rfl⟩
  refine ⟨_, task, .step run (.sleeps busy round), ?_, ?_, ?_, ?_⟩
  · change insert second.currentTask ∅ = {task}
    rw [current, insert_empty_eq]
  · have same : ({ second with keycodeQueue := queue } : Machine).currentTask =
        task := current
    rw [same] at invariant
    exact invariant
  · rw [keycodeQueue_step waits]
    exact still
  · exact leaves

/-- The only reader is asleep, so no scan code is pending. -/
theorem oneReader_attended :
    ∃ system pending, Run Layout.sample (fun _ => 0#8) system ∧
      system.reading.Nonempty ∧
      Holds (asBuffer system.machine.keycodeQueue) pending ∧
      pending.length ≤ (system.reading.filter (· ∈ [])).card := by
  rcases oneReader with ⟨system, task, sleeps⟩
  have reads : task ∈ system.reading := by
    rw [sleeps.reading]
    exact Finset.mem_singleton_self task
  have represents := sleeps.invariant.represents
  exact ⟨system, [], sleeps.run, ⟨task, reads⟩, sleeps.holds,
    pending_attended sleeps.run represents.run represents.event sleeps.holds
      ⟨task, reads, List.mem_singleton_self task⟩⟩

/-- A key has been pressed, and the reader will take its scan code in time. -/
theorem oneReader_takes :
    ∃ system ready task, Run Layout.sample (fun _ => 0#8) system ∧
      task ∈ system.reading ∧ task ∈ ready ∧
      ∀ timers joined later,
        Untaken Layout.sample system timers joined later →
        timers ≤ 2 * (turnOrder ready system.machine.currentTask).idxOf task +
          2 + 2 * joined := by
  rcases oneReader with ⟨system, reader, sleeps⟩
  have pressed : ∃ machine, Kernel.KernelRuns.Step Layout.sample
      system.machine (.keyboard 1#8 0x1e#8) machine :=
    sleeps.invariant.progress trivial
  rcases pressed with ⟨machine, taken⟩
  have outside : system.machine.currentTask ∉ system.reading := by
    have page : IsHeapPage reader :=
      sleeps.invariant.represents.event.pages reader
        (List.mem_singleton_self reader)
    rw [sleeps.idle, sleeps.reading, Finset.mem_singleton]
    exact page.ne_null.symm
  have run : Run Layout.sample (fun _ => 0#8)
      { machine, reading := system.reading } := by
    apply Run.step sleeps.run (.kernel outside _ taken)
    intro same
    cases same
  have holds : Holds (asBuffer machine.keycodeQueue) [0x1e#8] := by
    rw [keycodeQueue_step taken]
    exact holds_enqueue sleeps.holds 0x1e#8
  have invariant := (keyboard_effect sleeps.invariant taken).1
  have reading : system.reading.Nonempty := by
    rw [sleeps.reading]
    exact Finset.singleton_nonempty reader
  rcases scanCode_taken run reading invariant.represents.run holds
    (List.cons_ne_nil _ _) with ⟨task, reads, isReady, inTime⟩
  exact ⟨_, _, task, run, reads, isReady,
    fun timers joined later untaken =>
      (inTime timers joined later untaken).2⟩

end MagicalOs.Console.KeyboardReaders
