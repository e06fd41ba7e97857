import MagicalOs.Kernel.TaskQueues

/-!
# The wake-up traversals

Both traversals walk around a ring and move the tasks which are due to the run
queue.  They compare their position with the current head of the ring, so a
head which is due itself ends the walk: its successor is the next head.  `wake`
is this behaviour on lists.

`Visits` collects what a loop body has to satisfy, `tracedLoop_spec` is the one
induction over the loop, which also records its iterations, and the two
specifications at the end instantiate it.  They include that the loops
terminate.
-/

namespace MagicalOs.Kernel.SchedTraversal

open MagicalOs.Library.ByteMemory
open MagicalOs.Library.ByteMemory.Memory
open MagicalOs.Library.LinkRing
open MagicalOs.Kernel.HeapPages
open MagicalOs.Kernel.MachineState
open MagicalOs.Kernel.TaskStructure
open MagicalOs.Kernel.SchedQueues
open MagicalOs.Kernel.Scheduler
open MagicalOs.Kernel.TaskQueues

/-- The tasks which stay on the queue, and those which are woken, in order. -/
def wake (due : Nat → Bool) : List Nat → List Nat × List Nat
  | [] => ([], [])
  | head :: rest =>
      if due head then
        (rest, [head])
      else
        (head :: rest.filter (fun task => !due task), rest.filter due)

/-- The tasks a traversal visits: all of them, unless the first one is due. -/
def visited (due : Nat → Bool) : List Nat → List Nat
  | [] => []
  | head :: rest => if due head then [head] else head :: rest

/-- Nobody is missed if the first task is not due, or is the only one due. -/
theorem wake_eq_filter {due : Nat → Bool} {tasks : List Nat}
    (regular : ∀ head rest, tasks = head :: rest → due head = true →
      ∀ task ∈ rest, due task = false) :
    wake due tasks =
      (tasks.filter (fun task => !due task), tasks.filter due) := by
  cases tasks with
  | nil => rfl
  | cons head rest =>
      cases isDue : due head with
      | false => simp [wake, isDue]
      | true =>
          have others := regular head rest rfl isDue
          have stay : rest.filter (fun task => !due task) = rest :=
            List.filter_eq_self.mpr fun task member => by
              simp [others task member]
          have woken : rest.filter due = [] :=
            List.filter_eq_nil_iff.mpr fun task member => by
              simp [others task member]
          simp [wake, isDue, stay, woken]

/--
What the body of a traversal does to the tasks of its queue.  `Holds` relates
the machine to the tasks of the traversed queue and of the run queue.
-/
structure Visits (queue : Machine → Queue) (visit : Machine → Nat → Machine)
    (due : Memory → Nat → Bool)
    (Holds : Machine → List Nat → List Nat → Prop) : Prop where
  ring : ∀ {machine source run}, Holds machine source run →
    QueueRing machine.mem (queue machine) source
  keep : ∀ {machine source run task}, Holds machine source run →
    task ∈ source → due machine.mem task = false →
    Holds (visit machine task) source run
  move : ∀ {machine front back run task},
    Holds machine (front ++ task :: back) run →
    due machine.mem task = true →
    Holds (visit machine task) (front ++ back) (run ++ [task])
  others : ∀ {machine source run task other}, Holds machine source run →
    task ∈ source → other ∈ source → other ≠ task →
    due (visit machine task).mem other = due machine.mem other

/-- An iteration: the machine in which a successor is read, and of which task. -/
structure Visit where
  machine : Machine
  task : Nat

/-- The loop of both traversals, with a record of its iterations. -/
def tracedLoop (queue : Machine → Queue) (visit : Machine → Nat → Machine) :
    (iterations : Nat) → Machine → Nat → Option (Machine × List Visit)
  | 0, _, _ => none
  | iterations + 1, machine, task =>
      let successor := next machine.mem task
      let after := visit machine task
      if (queue after).head ≠ 0 ∧ successor ≠ (queue after).head then
        (tracedLoop queue visit iterations after successor).map
          fun (last, trace) => (last, ⟨machine, task⟩ :: trace)
      else
        some (after, [⟨machine, task⟩])

/-- The tasks that are visited, each one while it is on the queue. -/
structure OnQueue (Holds : Machine → List Nat → List Nat → Prop)
    (tasks : List Nat) (trace : List Visit) : Prop where
  tasks : trace.map Visit.task = tasks
  member : ∀ visit ∈ trace, ∃ source run,
    Holds visit.machine source run ∧ visit.task ∈ source

section Loop

variable {queue : Machine → Queue} {visit : Machine → Nat → Machine}
  {due : Memory → Nat → Bool}
  {Holds : Machine → List Nat → List Nat → Prop}
  {machine after : Machine} {source run rest kept : List Nat}
  {first task iterations : Nat}

/-- More iterations than needed do not change the result. -/
theorem updateLoop_mono (extra : Nat)
    (ran : updateLoop queue visit iterations machine task = some after) :
    updateLoop queue visit (iterations + extra) machine task = some after := by
  induction iterations generalizing machine task with
  | zero => cases ran
  | succ iterations induction =>
      rw [Nat.succ_add]
      rw [updateLoop] at ran ⊢
      split at ran
      next continues =>
        rw [if_pos continues]
        exact induction ran
      next stops =>
        rw [if_neg stops]
        exact ran

/-- The record does not change what the loop does. -/
theorem tracedLoop_erase (iterations : Nat) (machine : Machine) (task : Nat) :
    (tracedLoop queue visit iterations machine task).map Prod.fst =
      updateLoop queue visit iterations machine task := by
  induction iterations generalizing machine task with
  | zero => rfl
  | succ iterations induction =>
      rw [tracedLoop, updateLoop]
      by_cases continues : (queue (visit machine task)).head ≠ 0 ∧
          next machine.mem task ≠ (queue (visit machine task)).head
      · rw [if_pos continues, if_pos continues, ← induction, Option.map_map]
        rfl
      · rw [if_neg continues, if_neg continues]
        rfl

theorem OnQueue.single (holds : Holds machine source run)
    (member : task ∈ source) : OnQueue Holds [task] [⟨machine, task⟩] where
  tasks := rfl
  member := by
    intro visit only
    rw [List.mem_singleton.mp only]
    exact ⟨source, run, holds, member⟩

theorem OnQueue.cons {trace : List Visit} (holds : Holds machine source run)
    (member : task ∈ source) (onQueue : OnQueue Holds rest trace) :
    OnQueue Holds (task :: rest) (⟨machine, task⟩ :: trace) where
  tasks := by
    rw [List.map_cons, onQueue.tasks]
  member := by
    intro visit visited
    rcases List.mem_cons.mp visited with rfl | later
    · exact ⟨source, run, holds, member⟩
    · exact onQueue.member visit later

/-- A step which goes on with the successor of the visited task. -/
private theorem tracedLoop_continue
    (continues : (queue (visit machine task)).head ≠ 0 ∧
      next machine.mem task ≠ (queue (visit machine task)).head) :
    tracedLoop queue visit (iterations + 1) machine task =
      (tracedLoop queue visit iterations (visit machine task)
        (next machine.mem task)).map
          fun (last, trace) => (last, ⟨machine, task⟩ :: trace) := by
  rw [tracedLoop]
  exact if_pos continues

private theorem tracedLoop_stop
    (stops : ¬((queue (visit machine task)).head ≠ 0 ∧
      next machine.mem task ≠ (queue (visit machine task)).head)) :
    tracedLoop queue visit (iterations + 1) machine task =
      some (visit machine task, [⟨machine, task⟩]) := by
  rw [tracedLoop]
  exact if_neg stops

/-- Behind a head which stays, the loop goes on with the next task. -/
private theorem tracedLoop_second {front : List Nat} {second : Nat}
    (ring : QueueRing machine.mem (queue machine)
      (front ++ task :: second :: rest))
    (head : (queue (visit machine task)).head = (front ++ [task]).headD 0) :
    tracedLoop queue visit (iterations + 1) machine task =
      (tracedLoop queue visit iterations (visit machine task) second).map
        fun (last, trace) => (last, ⟨machine, task⟩ :: trace) := by
  have successor : next machine.mem task = second := by
    rw [ring.ring.next_eq]
    rfl
  have continues : (queue (visit machine task)).head ≠ 0 ∧
      next machine.mem task ≠ (queue (visit machine task)).head := by
    rw [head, successor]
    have distinct := ring.ring.nodup
    cases front with
    | nil =>
        refine ⟨(ring.pages task (by simp)).ne_null, ?_⟩
        rintro rfl
        simp at distinct
    | cons first kept =>
        refine ⟨(ring.pages first (by simp)).ne_null, ?_⟩
        rintro rfl
        simp at distinct
  rw [tracedLoop_continue continues, successor]

variable (visits : Visits queue visit due Holds)
include visits

/-- A visit does not change which of the later tasks are due. -/
private theorem due_visit {front : List Nat}
    (holds : Holds machine (front ++ task :: rest) run) :
    ∀ other ∈ rest,
      due (visit machine task).mem other = due machine.mem other := by
  intro other member
  apply visits.others holds (by simp) (by simp [member])
  rintro rfl
  have distinct := (visits.ring holds).ring.nodup
  have inner := (List.nodup_append.mp distinct).2.1
  exact (List.nodup_cons.mp inner).1 member

/-- One visit behind a head which stays on the queue. -/
private theorem visit_behind
    (holds : Holds machine (first :: (kept ++ task :: rest)) run) :
    Holds (visit machine task)
      (first ::
        (kept ++ [task].filter (fun task => !due machine.mem task) ++ rest))
      (run ++ [task].filter (due machine.mem)) := by
  cases isDue : due machine.mem task with
  | false => simpa [isDue] using visits.keep holds (by simp) isDue
  | true =>
      have split : Holds machine ((first :: kept) ++ task :: rest) run := holds
      simpa [isDue] using visits.move split isDue

/-- Behind a head which stays, the loop visits every task of the queue. -/
private theorem tracedLoop_tail
    (holds : Holds machine (first :: (kept ++ task :: rest)) run)
    (enough : (task :: rest).length ≤ iterations) :
    ∃ trace,
      tracedLoop queue visit iterations machine task =
          some ((task :: rest).foldl visit machine, trace) ∧
        OnQueue Holds (task :: rest) trace ∧
        Holds ((task :: rest).foldl visit machine)
          (first :: (kept ++
            (task :: rest).filter fun task => !due machine.mem task))
          (run ++ (task :: rest).filter (due machine.mem)) := by
  induction rest generalizing machine kept task run iterations with
  | nil =>
      rcases Nat.exists_eq_add_of_le' enough with ⟨more, rfl⟩
      have visited := visit_behind visits holds
      have head : (queue (visit machine task)).head = first :=
        (visits.ring visited).head
      have successor : next machine.mem task = first := by
        have split : Ring (next machine.mem) (prev machine.mem)
            ((first :: kept) ++ task :: []) := (visits.ring holds).ring
        rw [split.next_eq]
        rfl
      refine ⟨_, ?_, .single holds (by simp), by simpa using visited⟩
      exact tracedLoop_stop (by rw [head, successor]; simp)
  | cons second rest induction =>
      rcases Nat.exists_eq_add_of_le' enough with ⟨more, rfl⟩
      have visited := visit_behind visits holds
      have split : Holds machine
          ((first :: kept) ++ task :: second :: rest) run := holds
      have unchanged := due_visit visits split
      have head : (queue (visit machine task)).head = first :=
        (visits.ring visited).head
      have enoughRest :
          (second :: rest).length ≤ more + (second :: rest).length :=
        Nat.le_add_left _ _
      rcases induction visited enoughRest with ⟨trace, ran, onQueue, result⟩
      rw [List.filter_congr fun other member =>
        congrArg (!·) (unchanged other member)] at result
      rw [List.filter_congr unchanged] at result
      refine ⟨_, ?_, onQueue.cons holds (by simp), ?_⟩
      · rw [List.length_cons, ← Nat.add_assoc,
          tracedLoop_second (visits.ring split) head, ran]
        rfl
      · have joined (keep : Nat → Bool) :
            (task :: second :: rest).filter keep =
              [task].filter keep ++ (second :: rest).filter keep := by
          rw [← List.filter_append]
          rfl
        rw [joined, joined, ← List.append_assoc, ← List.append_assoc]
        exact result

/-- The loop, started at the head, is `wake` on the tasks of the queue. -/
theorem tracedLoop_spec
    (holds : Holds machine (first :: rest) run)
    (enough : (first :: rest).length ≤ iterations) :
    ∃ trace,
      tracedLoop queue visit iterations machine first =
          some ((visited (due machine.mem) (first :: rest)).foldl visit
            machine, trace) ∧
        OnQueue Holds (visited (due machine.mem) (first :: rest)) trace ∧
        Holds
          ((visited (due machine.mem) (first :: rest)).foldl visit machine)
          (wake (due machine.mem) (first :: rest)).1
          (run ++ (wake (due machine.mem) (first :: rest)).2) := by
  have ring := visits.ring holds
  have successor : next machine.mem first = rest.headD first := by
    have split : Ring (next machine.mem) (prev machine.mem)
        ([] ++ first :: rest) := ring.ring
    rw [split.next_eq, List.append_nil]
  rcases Nat.exists_eq_add_of_le' enough with ⟨more, rfl⟩
  cases isDue : due machine.mem first with
  | true =>
      have moved : Holds (visit machine first) rest (run ++ [first]) :=
        visits.move (show Holds machine ([] ++ first :: rest) run from holds)
          isDue
      have head := (visits.ring moved).head
      simp only [visited, wake, isDue, if_true, List.foldl_cons,
        List.foldl_nil]
      refine ⟨_, ?_, .single holds (by simp), moved⟩
      apply tracedLoop_stop
      rw [head, successor]
      cases rest with
      | nil => simp
      | cons second rest => simp
  | false =>
      have kept := visits.keep holds (List.mem_cons_self) isDue
      have head : (queue (visit machine first)).head = first :=
        (visits.ring kept).head
      simp only [visited, wake, isDue, Bool.false_eq_true, if_false,
        List.foldl_cons]
      cases rest with
      | nil =>
          refine ⟨_, ?_, .single holds (by simp), by simpa using kept⟩
          exact tracedLoop_stop (by rw [head, successor]; simp)
      | cons second rest =>
          have split : Holds machine ([] ++ first :: second :: rest) run :=
            holds
          have unchanged := due_visit visits split
          have enoughRest :
              (second :: rest).length ≤ more + (second :: rest).length :=
            Nat.le_add_left _ _
          have behind :
              Holds (visit machine first) (first :: ([] ++ second :: rest))
                run := kept
          rcases tracedLoop_tail visits behind enoughRest with
            ⟨trace, ran, onQueue, result⟩
          rw [List.filter_congr fun other member =>
            congrArg (!·) (unchanged other member)] at result
          rw [List.filter_congr unchanged] at result
          refine ⟨_, ?_, onQueue.cons holds (by simp), result⟩
          rw [List.length_cons, ← Nat.add_assoc,
            tracedLoop_second (visits.ring split) head, ran]
          rfl

/-- The loop without its record. -/
theorem updateLoop_spec
    (holds : Holds machine (first :: rest) run)
    (enough : (first :: rest).length ≤ iterations) :
    updateLoop queue visit iterations machine first =
        some ((visited (due machine.mem) (first :: rest)).foldl visit
          machine) ∧
      Holds
        ((visited (due machine.mem) (first :: rest)).foldl visit machine)
        (wake (due machine.mem) (first :: rest)).1
        (run ++ (wake (due machine.mem) (first :: rest)).2) := by
  rcases tracedLoop_spec visits holds enough with ⟨trace, ran, _, result⟩
  refine ⟨?_, result⟩
  rw [← tracedLoop_erase, ran]
  rfl

end Loop

/-! ## The loop bodies -/

section Bodies

variable {start machine : Machine} {before : Queues}
  {run sleep event : List Nat} {task other : Nat}

/-- The sleeper's time is up at this tick. -/
def sleeperDue (mem : Memory) (task : Nat) : Bool :=
  !decide (timerTickMs < wakeupAfterMsec mem task)

/-- The task waits for the event. -/
def waiterDue (eventType : Byte) (mem : Memory) (task : Nat) : Bool :=
  decide (wakeupAfterEvent mem task = eventType)

theorem visitSleeper_of_early (early : sleeperDue machine.mem task = false) :
    visitSleeper machine task =
      { machine with
        mem :=
          setWakeupAfterMsec machine.mem task
            (wakeupAfterMsec machine.mem task - timerTickMs) } := by
  rw [visitSleeper, if_pos]
  simpa [sleeperDue] using early

theorem visitSleeper_of_due (due : sleeperDue machine.mem task = true) :
    visitSleeper machine task =
      schedRunqEnq
        (schedWakeupqDel
          { machine with mem := setWakeupAfterMsec machine.mem task 0#32 }
          task).2 task := by
  rw [visitSleeper, if_neg]
  simpa [sleeperDue] using due

theorem visitWaiter_of_other {eventType : Byte}
    (other : waiterDue eventType machine.mem task = false) :
    visitWaiter eventType machine task = machine := by
  rw [visitWaiter, if_neg]
  simpa [waiterDue] using other

theorem visitWaiter_of_due {eventType : Byte}
    (due : waiterDue eventType machine.mem task = true) :
    visitWaiter eventType machine task =
      schedRunqEnq
        (schedWakeupevqDel
          { machine with mem := setWakeupAfterEvent machine.mem task 0#8 }
          task).2 task := by
  rw [visitWaiter, if_pos]
  simpa [waiterDue] using due

/-- The sleepers of a machine which `start` has turned into. -/
def Sleepers (start : Machine) (before : Queues) (event : List Nat)
    (machine : Machine) (sleep run : List Nat) : Prop :=
  Requeued start machine before ⟨run, sleep, event⟩

/-- The waiting tasks of a machine which `start` has turned into. -/
def Waiters (start : Machine) (before : Queues) (sleep : List Nat)
    (machine : Machine) (event run : List Nat) : Prop :=
  Requeued start machine before ⟨run, sleep, event⟩

private theorem setMsec_requeued (value : Word)
    (holds : Represents machine ⟨run, sleep, event⟩) (member : task ∈ sleep) :
    Requeued machine
      { machine with mem := setWakeupAfterMsec machine.mem task value }
      ⟨run, sleep, event⟩ ⟨run, sleep, event⟩ :=
  .of_tail holds (by simp [Queues.all, member])
    (setWakeupAfterMsec_tail _ task value)

private theorem setEvent_requeued (value : Byte)
    (holds : Represents machine ⟨run, sleep, event⟩) (member : task ∈ event) :
    Requeued machine
      { machine with mem := setWakeupAfterEvent machine.mem task value }
      ⟨run, sleep, event⟩ ⟨run, sleep, event⟩ :=
  .of_tail holds (by simp [Queues.all, member])
    (setWakeupAfterEvent_tail _ task value)

/-- A visit leaves the time of every other sleeper alone. -/
private theorem visitSleeper_others
    (holds : Represents machine ⟨run, sleep, event⟩)
    (member : task ∈ sleep) (otherMember : other ∈ sleep)
    (different : other ≠ task) :
    wakeupAfterMsec (visitSleeper machine task).mem other =
      wakeupAfterMsec machine.mem other := by
  have taskPage := holds.sleep.pages task member
  have otherPage := holds.sleep.pages other otherMember
  have apart := otherPage.apart taskPage different
  have untouched (value : Word) :
      AgreeOn (setWakeupAfterMsec machine.mem task value) machine.mem
        (other + 136) 4 :=
    (setWakeupAfterMsec_tail machine.mem task value).agreeOn (other + 136) 4
      (by omega)
  cases due : sleeperDue machine.mem task with
  | false =>
      rw [visitSleeper_of_early due]
      exact (untouched _).load32
  | true =>
      rcases List.append_of_mem member with ⟨front, back, rfl⟩
      have stored := (setMsec_requeued 0#32 holds member).represents
      have links := (wakeSleeper stored).links
      have moved :=
        agreeOn_of_linksOnly links stored.pages otherPage 136 4
          (by omega) (by omega)
      rw [visitSleeper_of_due due]
      exact moved.load32.trans (untouched _).load32

theorem visitSleeper_visits (start : Machine) (before : Queues)
    (event : List Nat) :
    Visits Machine.wakeupQueue visitSleeper sleeperDue
      (Sleepers start before event) where
  ring := fun holds => holds.represents.sleep
  keep := by
    intro machine sleep run task holds member early
    rw [visitSleeper_of_early early]
    exact holds.trans (setMsec_requeued _ holds.represents member)
  move := by
    intro machine front back run task holds due
    have member : task ∈ front ++ task :: back := by simp
    have stored := setMsec_requeued 0#32 holds.represents member
    rw [visitSleeper_of_due due]
    exact holds.trans
      (stored.trans (wakeSleeper stored.represents).toRequeued)
  others := by
    intro machine sleep run task other holds member otherMember different
    rw [sleeperDue, sleeperDue,
      visitSleeper_others holds.represents member otherMember different]

/-- A visit leaves the event of every other waiting task alone. -/
private theorem visitWaiter_others {eventType : Byte}
    (holds : Represents machine ⟨run, sleep, event⟩)
    (member : task ∈ event) (otherMember : other ∈ event)
    (different : other ≠ task) :
    wakeupAfterEvent (visitWaiter eventType machine task).mem other =
      wakeupAfterEvent machine.mem other := by
  have taskPage := holds.event.pages task member
  have otherPage := holds.event.pages other otherMember
  have apart := otherPage.apart taskPage different
  cases due : waiterDue eventType machine.mem task with
  | false => rw [visitWaiter_of_other due]
  | true =>
      rcases List.append_of_mem member with ⟨front, back, rfl⟩
      have untouched :
          AgreeOn (setWakeupAfterEvent machine.mem task 0#8) machine.mem
            (other + 140) 1 :=
        (setWakeupAfterEvent_tail machine.mem task 0#8).agreeOn (other + 140) 1
          (by omega)
      have stored := (setEvent_requeued 0#8 holds member).represents
      have links := (wakeWaiter stored).links
      have moved :=
        agreeOn_of_linksOnly links stored.pages otherPage 140 1
          (by omega) (by omega)
      rw [visitWaiter_of_due due]
      exact moved.load8.trans untouched.load8

theorem visitWaiter_visits (eventType : Byte) (start : Machine)
    (before : Queues) (sleep : List Nat) :
    Visits Machine.wakeupEventQueue (visitWaiter eventType)
      (waiterDue eventType) (Waiters start before sleep) where
  ring := fun holds => holds.represents.event
  keep := by
    intro machine event run task holds member early
    rw [visitWaiter_of_other early]
    exact holds
  move := by
    intro machine front back run task holds due
    have member : task ∈ front ++ task :: back := by simp
    have stored := setEvent_requeued 0#8 holds.represents member
    rw [visitWaiter_of_due due]
    exact holds.trans
      (stored.trans (wakeWaiter stored.represents).toRequeued)
  others := by
    intro machine event run task other holds member otherMember different
    rw [waiterDue, waiterDue,
      visitWaiter_others holds.represents member otherMember different]

end Bodies

/-! ## The two traversals -/

/-- What both functions do around their loops. -/
def guardedUpdate (queue : Machine → Queue) (visit : Machine → Nat → Machine)
    (iterations : Nat) (machine : Machine) : Option (Int × Machine) :=
  if (queue machine).head = 0 then
    some (-1, machine)
  else
    (updateLoop queue visit iterations machine (queue machine).head).map
      fun machine => (0, machine)

section Guarded

variable {queue : Machine → Queue} {visit : Machine → Nat → Machine}
  {machine : Machine} {iterations : Nat}

theorem guardedUpdate_spec {due : Memory → Nat → Bool}
    {Holds : Machine → List Nat → List Nat → Prop}
    (visits : Visits queue visit due Holds) {tasks run : List Nat}
    (holds : Holds machine tasks run) (enough : tasks.length ≤ iterations) :
    (∃ result, guardedUpdate queue visit iterations machine =
      some (result, (visited (due machine.mem) tasks).foldl visit machine)) ∧
      Holds ((visited (due machine.mem) tasks).foldl visit machine)
        (wake (due machine.mem) tasks).1
        (run ++ (wake (due machine.mem) tasks).2) := by
  have ring := visits.ring holds
  cases tasks with
  | nil =>
      have isEmpty : (queue machine).head = 0 := ring.head
      constructor
      · exact ⟨-1, if_pos isEmpty⟩
      · simpa [visited, wake] using holds
  | cons first rest =>
      have head : (queue machine).head = first := ring.head
      have page := ring.pages first (List.mem_cons_self ..)
      rcases updateLoop_spec visits holds enough with ⟨ran, result⟩
      refine ⟨⟨0, ?_⟩, result⟩
      rw [guardedUpdate, head, if_neg page.ne_null, ran]
      rfl

theorem guardedUpdate_mono {outcome : Int × Machine} (extra : Nat)
    (ran : guardedUpdate queue visit iterations machine = some outcome) :
    guardedUpdate queue visit (iterations + extra) machine = some outcome := by
  rw [guardedUpdate] at ran ⊢
  split at ran
  next isEmpty => rwa [if_pos isEmpty]
  next nonEmpty =>
    rcases Option.map_eq_some_iff.mp ran with ⟨after, loop, rfl⟩
    rw [if_neg nonEmpty, updateLoop_mono extra loop]
    rfl

end Guarded

section Updates

variable {machine after : Machine} {run sleep event : List Nat}
  {iterations : Nat} {result : Int}

/-- The queues after the sleepers which are due have been woken. -/
def wokenSleepers (machine : Machine) (queues : Queues) : Queues where
  run := queues.run ++ (wake (sleeperDue machine.mem) queues.sleep).2
  sleep := (wake (sleeperDue machine.mem) queues.sleep).1
  event := queues.event

/-- The queues after the tasks which wait for the event have been woken. -/
def wokenWaiters (machine : Machine) (eventType : Byte) (queues : Queues) :
    Queues where
  run := queues.run ++ (wake (waiterDue eventType machine.mem) queues.event).2
  sleep := queues.sleep
  event := (wake (waiterDue eventType machine.mem) queues.event).1

/-- The machine after all visits of `sched_update_wakeupq`. -/
def visitSleepers (machine : Machine) (queues : Queues) : Machine :=
  (visited (sleeperDue machine.mem) queues.sleep).foldl visitSleeper machine

/-- The machine after all visits of `sched_update_wakeupevq`. -/
def visitWaiters (machine : Machine) (eventType : Byte) (queues : Queues) :
    Machine :=
  (visited (waiterDue eventType machine.mem) queues.event).foldl
    (visitWaiter eventType) machine

/-- `sched_update_wakeupq` terminates, and wakes the sleepers which are due. -/
theorem schedUpdateWakeupq_spec {queues : Queues}
    (holds : Represents machine queues)
    (enough : queues.sleep.length ≤ iterations) :
    (∃ result, schedUpdateWakeupq iterations machine =
      some (result, visitSleepers machine queues)) ∧
      Requeued machine (visitSleepers machine queues) queues
        (wokenSleepers machine queues) := by
  have start : Sleepers machine queues queues.event machine queues.sleep
      queues.run := Requeued.refl holds
  exact guardedUpdate_spec (visitSleeper_visits machine queues _) start enough

theorem schedUpdateWakeupevq_spec {queues : Queues} (eventType : Byte)
    (holds : Represents machine queues)
    (enough : queues.event.length ≤ iterations) :
    (∃ result, schedUpdateWakeupevq iterations machine eventType =
      some (result, visitWaiters machine eventType queues)) ∧
      Requeued machine (visitWaiters machine eventType queues) queues
        (wokenWaiters machine eventType queues) := by
  have start : Waiters machine queues queues.sleep machine queues.event
      queues.run := Requeued.refl holds
  exact guardedUpdate_spec (visitWaiter_visits eventType machine queues _)
    start enough

theorem schedUpdateWakeupq_mono {outcome : Int × Machine} (extra : Nat)
    (ran : schedUpdateWakeupq iterations machine = some outcome) :
    schedUpdateWakeupq (iterations + extra) machine = some outcome :=
  guardedUpdate_mono extra ran

theorem schedUpdateWakeupevq_mono {outcome : Int × Machine} {eventType : Byte}
    (extra : Nat)
    (ran : schedUpdateWakeupevq iterations machine eventType = some outcome) :
    schedUpdateWakeupevq (iterations + extra) machine eventType =
      some outcome :=
  guardedUpdate_mono extra ran

/-- Whenever the traversal of the sleepers ends, it has ended like that. -/
theorem schedUpdateWakeupq_eq {queues : Queues}
    (holds : Represents machine queues)
    (ran : schedUpdateWakeupq iterations machine = some (result, after)) :
    after = visitSleepers machine queues := by
  rcases schedUpdateWakeupq_spec holds
    (Nat.le_add_left queues.sleep.length iterations) with ⟨⟨same, long⟩, _⟩
  have extended := schedUpdateWakeupq_mono queues.sleep.length ran
  rw [long] at extended
  cases extended
  rfl

theorem schedUpdateWakeupq_requeued {queues : Queues}
    (holds : Represents machine queues)
    (ran : schedUpdateWakeupq iterations machine = some (result, after)) :
    Requeued machine after queues (wokenSleepers machine queues) := by
  rw [schedUpdateWakeupq_eq holds ran]
  exact (schedUpdateWakeupq_spec holds (Nat.le_refl _)).2

theorem schedUpdateWakeupevq_eq {queues : Queues} {eventType : Byte}
    (holds : Represents machine queues)
    (ran :
      schedUpdateWakeupevq iterations machine eventType =
        some (result, after)) :
    after = visitWaiters machine eventType queues := by
  rcases schedUpdateWakeupevq_spec eventType holds
    (Nat.le_add_left queues.event.length iterations) with ⟨⟨same, long⟩, _⟩
  have extended := schedUpdateWakeupevq_mono queues.event.length ran
  rw [long] at extended
  cases extended
  rfl

theorem schedUpdateWakeupevq_requeued {queues : Queues} {eventType : Byte}
    (holds : Represents machine queues)
    (ran :
      schedUpdateWakeupevq iterations machine eventType =
        some (result, after)) :
    Requeued machine after queues
      (wokenWaiters machine eventType queues) := by
  rw [schedUpdateWakeupevq_eq holds ran]
  exact (schedUpdateWakeupevq_spec eventType holds (Nat.le_refl _)).2

end Updates

end MagicalOs.Kernel.SchedTraversal
