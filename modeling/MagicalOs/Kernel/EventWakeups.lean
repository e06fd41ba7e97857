import MagicalOs.Kernel.TaskFields

/-!
# Waking up the tasks which wait for an event

`sched_update_wakeupevq` is meant to wake every task which waits for the event.
It compares its position with the head of the queue, which moves on when the
head itself is woken, so it then stops after that one task.  The call therefore
does what it should unless both the head and a later task wait for the event.
-/

namespace MagicalOs.Kernel.EventWakeups

open MagicalOs.Library.ByteMemory
open MagicalOs.Library.ByteMemory.Memory
open MagicalOs.Kernel.HeapPages
open MagicalOs.Kernel.MachineState
open MagicalOs.Kernel.TaskStructure
open MagicalOs.Kernel.SchedQueues
open MagicalOs.Kernel.Scheduler
open MagicalOs.Kernel.TaskQueues
open MagicalOs.Kernel.SchedTraversal
open MagicalOs.Kernel.KernelRuns
open MagicalOs.Kernel.TaskFields

/-- The task waits for the event. -/
def WaitsFor (eventType : Byte) (machine : Machine) (task : Nat) : Prop :=
  wakeupAfterEvent machine.mem task = eventType

instance (eventType : Byte) (machine : Machine) (task : Nat) :
    Decidable (WaitsFor eventType machine task) :=
  inferInstanceAs (Decidable (_ = _))

/--
Exactly the tasks which wait for the event have moved to the end of the run
queue, with a cleared field; the others keep their order and their contents.
-/
structure WakesWaiters (machine after : Machine) (eventType : Byte)
    (queues : Queues) : Prop where
  event : QueueRing after.mem after.wakeupEventQueue
    (queues.event.filter fun task => ¬WaitsFor eventType machine task)
  run : QueueRing after.mem after.runQueue
    (queues.run ++ queues.event.filter fun task =>
      WaitsFor eventType machine task)
  cleared : ∀ task ∈ queues.event, WaitsFor eventType machine task →
    fields after.mem task =
      { fields machine.mem task with wakeupAfterEvent := 0#8 }
  unchanged : ∀ task ∈ queues.event, ¬WaitsFor eventType machine task →
    fields after.mem task = fields machine.mem task ∧
      AgreeOn after.mem machine.mem (task + 8) 124

/-- If the head of the queue waits for the event, no other task does. -/
def HeadWaitsAlone (machine : Machine) (eventType : Byte)
    (queues : Queues) : Prop :=
  ∀ head rest, queues.event = head :: rest →
    WaitsFor eventType machine head →
    ∀ task ∈ rest, ¬WaitsFor eventType machine task

section Update

variable {machine after : Machine} {queues : Queues} {eventType : Byte}
  {task iterations : Nat} {result : Int}

private theorem waiterDue_eq :
    waiterDue eventType machine.mem =
      fun task => decide (WaitsFor eventType machine task) :=
  rfl

/-- A task is visited unless the head of its queue is woken before. -/
private theorem notified_of_visited
    (alone : HeadWaitsAlone machine eventType queues)
    (member : task ∈ queues.event) :
    (if task ∈ visited (waiterDue eventType machine.mem) queues.event then
      notified eventType (fields machine.mem task)
    else fields machine.mem task) =
      notified eventType (fields machine.mem task) := by
  rw [ite_eq_left_iff]
  intro missed
  rw [notified, if_neg]
  intro waits
  cases tasks : queues.event with
  | nil => simp [tasks] at member
  | cons head rest =>
      rw [tasks, visited] at missed
      rw [tasks] at member
      split at missed
      next isDue =>
        have headWaits : WaitsFor eventType machine head := by
          simpa [waiterDue_eq] using isDue
        have inRest : task ∈ rest := by
          rcases List.mem_cons.mp member with rfl | inRest
          · simp at missed
          · exact inRest
        exact alone head rest tasks headWaits task inRest waits
      next => exact missed member

theorem wakesWaiters_of_alone (holds : Represents machine queues)
    (ran : schedUpdateWakeupevq iterations machine eventType =
      some (result, after))
    (alone : HeadWaitsAlone machine eventType queues) :
    WakesWaiters machine after eventType queues := by
  have requeued := schedUpdateWakeupevq_requeued holds ran
  have represents := requeued.represents
  have visits : ∀ task ∈ queues.event, fields after.mem task =
      notified eventType (fields machine.mem task) := by
    intro task member
    have effect := fields_visitWaiters eventType holds
      (holds.event.pages task member)
    rw [notified_of_visited alone member] at effect
    rw [schedUpdateWakeupevq_eq holds ran]
    exact effect
  have regular : ∀ head rest, queues.event = head :: rest →
      waiterDue eventType machine.mem head = true →
      ∀ task ∈ rest, waiterDue eventType machine.mem task = false := by
    intro head rest tasks isDue task member
    have headWaits : WaitsFor eventType machine head := by
      simpa [waiterDue_eq] using isDue
    simpa [waiterDue_eq] using alone head rest tasks headWaits task member
  have eventRing := represents.event
  have runRing := represents.run
  rw [wokenWaiters, wake_eq_filter regular] at eventRing runRing
  constructor
  · simpa [waiterDue_eq] using eventRing
  · simpa [waiterDue_eq] using runRing
  · intro task member waits
    rw [visits task member, notified, if_pos (show
      (fields machine.mem task).wakeupAfterEvent = eventType from waits)]
  · intro task member stays
    constructor
    · rw [visits task member, notified, if_neg (show
        ¬(fields machine.mem task).wakeupAfterEvent = eventType from stays)]
    · exact requeued.undisturbed.mem.agreeOn holds.pages
        (holds.event.pages task member) 8 124 (by omega) (by omega)

/-- A later task which waits as well stays on the queue. -/
theorem alone_of_wakesWaiters (holds : Represents machine queues)
    (ran : schedUpdateWakeupevq iterations machine eventType =
      some (result, after))
    (correct : WakesWaiters machine after eventType queues) :
    HeadWaitsAlone machine eventType queues := by
  intro head rest tasks headWaits task member waits
  have eventRing := (schedUpdateWakeupevq_requeued holds ran).represents.event
  have isDue : waiterDue eventType machine.mem head = true := by
    simpa [waiterDue_eq] using headWaits
  rw [wokenWaiters, tasks, wake, if_pos isDue] at eventRing
  have same : rest = queues.event.filter fun task =>
      ¬WaitsFor eventType machine task := eventRing.unique correct.event
  rw [same] at member
  have stays := (List.mem_filter.mp member).2
  simp [waits] at stays

/--
`sched_update_wakeupevq` terminates, and wakes the tasks which wait for the
event exactly when the head of the queue does not hide another one.
-/
theorem wakesWaiters_iff (holds : Represents machine queues)
    (eventType : Byte) :
    (∃ iterations result after,
      schedUpdateWakeupevq iterations machine eventType =
        some (result, after)) ∧
      ∀ iterations result after,
        schedUpdateWakeupevq iterations machine eventType =
          some (result, after) →
        (WakesWaiters machine after eventType queues ↔
          HeadWaitsAlone machine eventType queues) := by
  constructor
  · rcases (schedUpdateWakeupevq_spec eventType holds (Nat.le_refl _)).1 with
      ⟨result, ran⟩
    exact ⟨_, result, _, ran⟩
  · intro iterations result after ran
    constructor
    · exact alone_of_wakesWaiters holds ran
    · exact wakesWaiters_of_alone holds ran

end Update

/-! ## Two tasks waiting for the keyboard -/

/-- Every task structure of this memory waits for the keyboard. -/
def oneWaiter : Machine :=
  schedWakeupevqEnq (staticMachine fun _ => eventTypeKbd) (heapPage 0)

def twoWaiters : Machine :=
  schedWakeupevqEnq oneWaiter (heapPage 1)

private theorem heapPage_isHeapPage {index : Nat}
    (small : index < maxHeapPages) : IsHeapPage (heapPage index) :=
  ⟨index, small, rfl⟩

theorem oneWaiter_represents :
    Represents oneWaiter ⟨[], [], [heapPage 0]⟩ := by
  have page : IsHeapPage (heapPage 0) := heapPage_isHeapPage (by decide)
  have queue : QueueRing (fun _ => eventTypeKbd) ⟨0, 0#32⟩ [] := .empty _
  have ring := queueEnq_ring queue page List.not_mem_nil
  exact ⟨.empty _, .empty _, ring, by simp [Queues.all]⟩

theorem twoWaiters_represents :
    Represents twoWaiters ⟨[], [], [heapPage 0, heapPage 1]⟩ := by
  have page : IsHeapPage (heapPage 1) := heapPage_isHeapPage (by decide)
  have ring := queueEnq_ring oneWaiter_represents.event page
    (by simp [heapPage_inj])
  exact ⟨.empty _, .empty _, ring, by simp [Queues.all, heapPage_inj]⟩

theorem oneWaiter_wakesWaiters :
    ∃ iterations result after,
      schedUpdateWakeupevq iterations oneWaiter eventTypeKbd =
        some (result, after) ∧
      WakesWaiters oneWaiter after eventTypeKbd ⟨[], [], [heapPage 0]⟩ := by
  have spec := wakesWaiters_iff oneWaiter_represents eventTypeKbd
  have alone : HeadWaitsAlone oneWaiter eventTypeKbd
      ⟨[], [], [heapPage 0]⟩ := by
    rintro head rest tasks _ task member
    cases tasks
    cases member
  rcases spec.1 with ⟨iterations, result, after, ran⟩
  exact ⟨iterations, result, after, ran,
    (spec.2 iterations result after ran).mpr alone⟩

/-- Both tasks wait for the keyboard. -/
private theorem twoWaiters_waits (index : Nat) (small : index < 2) :
    WaitsFor eventTypeKbd twoWaiters (heapPage index) := by
  have firstPage : IsHeapPage (heapPage 0) := heapPage_isHeapPage (by decide)
  have secondPage : IsHeapPage (heapPage 1) := heapPage_isHeapPage (by decide)
  have page : IsHeapPage (heapPage index) :=
    heapPage_isHeapPage (by rw [maxHeapPages]; omega)
  have queue : QueueRing (fun _ => eventTypeKbd) ⟨0, 0#32⟩ [] := .empty _
  have afterFirst : fields oneWaiter.mem (heapPage index) =
      fields (fun _ => eventTypeKbd) (heapPage index) :=
    fields_queueEnq queue firstPage List.not_mem_nil page
  have afterSecond : fields twoWaiters.mem (heapPage index) =
      fields oneWaiter.mem (heapPage index) :=
    fields_queueEnq oneWaiter_represents.event secondPage
      (by simp [heapPage_inj]) page
  exact congrArg Fields.wakeupAfterEvent (afterSecond.trans afterFirst)

/-- One key press wakes only the first of two tasks waiting for the keyboard. -/
theorem twoWaiters_not_wakesWaiters :
    Represents twoWaiters ⟨[], [], [heapPage 0, heapPage 1]⟩ ∧
      ∃ iterations result after,
        schedUpdateWakeupevq iterations twoWaiters eventTypeKbd =
          some (result, after) ∧
        ¬WakesWaiters twoWaiters after eventTypeKbd
          ⟨[], [], [heapPage 0, heapPage 1]⟩ := by
  rcases (schedUpdateWakeupevq_spec eventTypeKbd twoWaiters_represents
    (Nat.le_refl _)).1 with ⟨result, ran⟩
  refine ⟨twoWaiters_represents, _, result, _, ran, fun correct => ?_⟩
  have alone := alone_of_wakesWaiters twoWaiters_represents ran correct
  exact alone (heapPage 0) [heapPage 1] rfl (twoWaiters_waits 0 (by omega))
    (heapPage 1) (by simp) (twoWaiters_waits 1 (by omega))

end MagicalOs.Kernel.EventWakeups
