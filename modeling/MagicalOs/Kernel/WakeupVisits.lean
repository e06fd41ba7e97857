import MagicalOs.Kernel.SleepTimes

/-!
# The iterations of the wake-up traversals

Each traversal is run together with a record of its iterations: the machine in
which the successor of a task is read, and the task.  On a ring of any length
there are no more iterations than tasks, no task is met twice, and a task whose
link is followed is still on its wake-up queue, whatever has been moved to the
run queue before.
-/

namespace MagicalOs.Kernel.WakeupVisits

open MagicalOs.Library.ByteMemory
open MagicalOs.Kernel.HeapPages
open MagicalOs.Kernel.MachineState
open MagicalOs.Kernel.SchedQueues
open MagicalOs.Kernel.Scheduler
open MagicalOs.Kernel.TaskQueues
open MagicalOs.Kernel.SchedTraversal
open MagicalOs.Kernel.SleepTimes

/-- `guardedUpdate`, with a record of its iterations. -/
def tracedUpdate (queue : Machine → Queue) (visit : Machine → Nat → Machine)
    (iterations : Nat) (machine : Machine) :
    Option (Int × Machine × List Visit) :=
  if (queue machine).head = 0 then
    some (-1, machine, [])
  else
    (tracedLoop queue visit iterations machine (queue machine).head).map
      fun (machine, trace) => (0, machine, trace)

/-- `sched_update_wakeupq`, with a record of its iterations. -/
def tracedUpdateWakeupq (iterations : Nat) (machine : Machine) :
    Option (Int × Machine × List Visit) :=
  tracedUpdate Machine.wakeupQueue visitSleeper iterations machine

/-- `sched_update_wakeupevq`, with a record of its iterations. -/
def tracedUpdateWakeupevq (iterations : Nat) (machine : Machine)
    (eventType : Byte) : Option (Int × Machine × List Visit) :=
  tracedUpdate Machine.wakeupEventQueue (visitWaiter eventType) iterations
    machine

section Erase

variable (iterations : Nat) (machine : Machine)

theorem tracedUpdate_erase (queue : Machine → Queue)
    (visit : Machine → Nat → Machine) :
    (tracedUpdate queue visit iterations machine).map
        (fun (result, after, _) => (result, after)) =
      guardedUpdate queue visit iterations machine := by
  rw [tracedUpdate, guardedUpdate]
  by_cases isEmpty : (queue machine).head = 0
  · rw [if_pos isEmpty, if_pos isEmpty]
    rfl
  · rw [if_neg isEmpty, if_neg isEmpty, ← tracedLoop_erase, Option.map_map,
      Option.map_map]
    rfl

theorem tracedUpdateWakeupq_erase :
    (tracedUpdateWakeupq iterations machine).map
        (fun (result, after, _) => (result, after)) =
      schedUpdateWakeupq iterations machine :=
  tracedUpdate_erase iterations machine Machine.wakeupQueue visitSleeper

theorem tracedUpdateWakeupevq_erase (eventType : Byte) :
    (tracedUpdateWakeupevq iterations machine eventType).map
        (fun (result, after, _) => (result, after)) =
      schedUpdateWakeupevq iterations machine eventType :=
  tracedUpdate_erase iterations machine Machine.wakeupEventQueue
    (visitWaiter eventType)

end Erase

/-- A walk over the tasks of a queue. -/
structure WalksOnce (tasks : List Nat) (source : Queues → List Nat)
    (trace : List Visit) : Prop where
  few : trace.length ≤ tasks.length
  once : (trace.map Visit.task).Nodup
  notMoved : ∀ visit ∈ trace, ∃ queues,
    Represents visit.machine queues ∧ visit.task ∈ source queues ∧
      visit.task ∉ queues.run

section Walks

variable {due : Nat → Bool} {machine : Machine} {queues : Queues}

/-- A traversal visits a part of the queue, from its head on. -/
theorem visited_sublist (due : Nat → Bool) (tasks : List Nat) :
    (visited due tasks).Sublist tasks := by
  cases tasks with
  | nil => exact .slnil
  | cons head rest =>
      rw [visited]
      cases due head with
      | true => exact (List.nil_sublist rest).cons_cons head
      | false => exact List.Sublist.refl _

/-- No task is on the run queue and on one of the others. -/
theorem not_mem_run (holds : Represents machine queues) {task : Nat}
    (member : task ∈ queues.sleep ++ queues.event) : task ∉ queues.run := by
  intro runs
  have distinct := holds.nodup
  rw [Queues.all, List.nodup_append] at distinct
  exact distinct.2.2 task runs task member rfl

/-- A recorded walk from the head of a queue without repetitions. -/
theorem walksOnce_of_onQueue {tasks : List Nat} {trace : List Visit}
    {source : Queues → List Nat}
    {Holds : Machine → List Nat → List Nat → Prop}
    (nodup : tasks.Nodup) (onQueue : OnQueue Holds (visited due tasks) trace)
    (represents : ∀ machine waiting run, Holds machine waiting run →
      ∃ queues, Represents machine queues ∧ source queues = waiting ∧
        ∀ task ∈ waiting, task ∉ queues.run) :
    WalksOnce tasks source trace := by
  have part := visited_sublist due tasks
  constructor
  · have length : trace.length = (visited due tasks).length := by
      rw [← onQueue.tasks, List.length_map]
    rw [length]
    exact part.length_le
  · rw [onQueue.tasks]
    exact part.nodup nodup
  · intro visit member
    rcases onQueue.member visit member with ⟨waiting, run, holds, onIt⟩
    rcases represents visit.machine waiting run holds with
      ⟨queues, isRepresented, rfl, elsewhere⟩
    exact ⟨queues, isRepresented, onIt, elsewhere visit.task onIt⟩

/-- A traversal with a suitable loop body walks over its queue. -/
theorem tracedUpdate_walksOnce {queue : Machine → Queue}
    {visit : Machine → Nat → Machine} {isDue : Memory → Nat → Bool}
    {Holds : Machine → List Nat → List Nat → Prop}
    (visits : Visits queue visit isDue Holds) {tasks run : List Nat}
    (holds : Holds machine tasks run) {source : Queues → List Nat}
    (represents : ∀ machine waiting run, Holds machine waiting run →
      ∃ queues, Represents machine queues ∧ source queues = waiting ∧
        ∀ task ∈ waiting, task ∉ queues.run) :
    ∃ result after trace,
      tracedUpdate queue visit tasks.length machine =
          some (result, after, trace) ∧
        WalksOnce tasks source trace := by
  have ring := visits.ring holds
  cases tasks with
  | nil =>
      have isEmpty : (queue machine).head = 0 := ring.head
      refine ⟨-1, machine, [], ?_, Nat.le_refl 0, List.nodup_nil, ?_⟩
      · rw [tracedUpdate, if_pos isEmpty]
      · intro visit member
        cases member
  | cons first rest =>
      have head : (queue machine).head = first := ring.head
      have page := ring.pages first (List.mem_cons_self ..)
      rcases tracedLoop_spec visits holds (Nat.le_refl _) with
        ⟨trace, ran, onQueue, _⟩
      have walks : WalksOnce (first :: rest) source trace :=
        walksOnce_of_onQueue ring.ring.nodup onQueue represents
      refine ⟨0, (visited (isDue machine.mem) (first :: rest)).foldl visit
        machine, trace, ?_, walks⟩
      rw [tracedUpdate, head, if_neg page.ne_null, ran, Option.map_some]

/-- The walk over the sleepers. -/
theorem tracedUpdateWakeupq_walksOnce (holds : Represents machine queues) :
    ∃ result after trace,
      tracedUpdateWakeupq queues.sleep.length machine =
          some (result, after, trace) ∧
        WalksOnce queues.sleep Queues.sleep trace := by
  have start : Sleepers machine queues queues.event machine queues.sleep
      queues.run := Requeued.refl holds
  apply tracedUpdate_walksOnce (visitSleeper_visits machine queues _) start
  intro later waiting running represented
  refine ⟨_, represented.represents, rfl, ?_⟩
  intro task member
  apply not_mem_run represented.represents
  exact List.mem_append_left queues.event member

/-- The walk over the tasks that wait for events. -/
theorem tracedUpdateWakeupevq_walksOnce (holds : Represents machine queues)
    (eventType : Byte) :
    ∃ result after trace,
      tracedUpdateWakeupevq queues.event.length machine eventType =
          some (result, after, trace) ∧
        WalksOnce queues.event Queues.event trace := by
  have start : Waiters machine queues queues.sleep machine queues.event
      queues.run := Requeued.refl holds
  apply tracedUpdate_walksOnce
    (visitWaiter_visits eventType machine queues _) start
  intro later waiting running represented
  refine ⟨_, represented.represents, rfl, ?_⟩
  intro task member
  apply not_mem_run represented.represents
  exact List.mem_append_right queues.sleep member

/-- Both traversals end after at most one iteration for each task, and follow
no link of a task that they have moved. -/
theorem traversals_walkOnce (holds : Represents machine queues)
    (eventType : Byte) :
    (∃ result after trace,
      schedUpdateWakeupq queues.sleep.length machine = some (result, after) ∧
        tracedUpdateWakeupq queues.sleep.length machine =
          some (result, after, trace) ∧
        WalksOnce queues.sleep Queues.sleep trace) ∧
      ∃ result after trace,
        schedUpdateWakeupevq queues.event.length machine eventType =
            some (result, after) ∧
          tracedUpdateWakeupevq queues.event.length machine eventType =
            some (result, after, trace) ∧
          WalksOnce queues.event Queues.event trace := by
  constructor
  · rcases tracedUpdateWakeupq_walksOnce holds with
      ⟨result, after, trace, ran, walks⟩
    refine ⟨result, after, trace, ?_, ran, walks⟩
    rw [← tracedUpdateWakeupq_erase, ran]
    rfl
  · rcases tracedUpdateWakeupevq_walksOnce holds eventType with
      ⟨result, after, trace, ran, walks⟩
    refine ⟨result, after, trace, ?_, ran, walks⟩
    rw [← tracedUpdateWakeupevq_erase, ran]
    rfl

/-- Two sleepers, of which the first one is woken. -/
theorem traversals_walkOnce_twoSleepers :
    (∃ result after trace,
      schedUpdateWakeupq 2 twoSleepers = some (result, after) ∧
        tracedUpdateWakeupq 2 twoSleepers = some (result, after, trace) ∧
        WalksOnce [heapPage 0, heapPage 1] Queues.sleep trace) ∧
      ∃ result after trace,
        schedUpdateWakeupevq 0 twoSleepers 1#8 = some (result, after) ∧
          tracedUpdateWakeupevq 0 twoSleepers 1#8 =
            some (result, after, trace) ∧
          WalksOnce [] Queues.event trace :=
  traversals_walkOnce twoSleepers_represents 1#8

end Walks

end MagicalOs.Kernel.WakeupVisits
