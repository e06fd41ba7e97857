import MagicalOs.Library.TurnOrder
import MagicalOs.Kernel.TimeSlices
import MagicalOs.Kernel.WakeupDelays

/-!
# Every ready task gets its turn

A timer interrupt passes the turn to the next task of the run queue, unless the
current task was switched to in the middle of a time slice: it then only loses
its mark.  A task which goes to sleep passes its turn on at once.  Tasks which
become ready join the queue at its end, which may lie between the current task
and one that waits for its turn.

A ready task is therefore passed by at most two timer interrupts for each task
in front of it and for each one that joins the queue in the meantime, and one
more for a mark which is there at the beginning.
-/

namespace MagicalOs.Kernel.Fairness

open MagicalOs.Library.ByteMemory
open MagicalOs.Library.TurnOrder
open MagicalOs.Kernel.HeapPages
open MagicalOs.Kernel.MachineState
open MagicalOs.Kernel.TaskStructure
open MagicalOs.Kernel.SchedQueues
open MagicalOs.Kernel.Scheduler
open MagicalOs.Kernel.TaskQueues
open MagicalOs.Kernel.SchedTraversal
open MagicalOs.Kernel.Dispatch
open MagicalOs.Kernel.KernelRuns
open MagicalOs.Kernel.QueueInvariant
open MagicalOs.Kernel.TaskFields
open MagicalOs.Kernel.StepEffects
open MagicalOs.Kernel.TimeSlices
open MagicalOs.Kernel.WakeupDelays

/-- How many tasks have joined the run queue in a step. -/
def growth (machine after : Machine) : Nat :=
  after.runQueue.len.toNat - machine.runQueue.len.toNat

/-- Whether the event is a timer interrupt, as a number. -/
def ticks (event : Event) : Nat :=
  if isTimer event then 1 else 0

/--
Steps in which a task does not become the current one, with the number of timer
interrupts and of tasks which joined the run queue.
-/
inductive PassedBy (layout : Layout) (start : Machine) (task : Nat) :
    Nat → Nat → Machine → Prop where
  | start (waits : start.currentTask ≠ task) :
      PassedBy layout start task 0 0 start
  | step {timers joined : Nat} {machine after : Machine} {event : Event}
      (before : PassedBy layout start task timers joined machine)
      (taken : Step layout machine event after)
      (waits : after.currentTask ≠ task) :
      PassedBy layout start task (timers + ticks event)
        (joined + growth machine after) after

/-- One if the current task keeps the processor at the next timer interrupt. -/
def marked (machine : Machine) : Nat :=
  if KeepsSlice machine .timer then 1 else 0

/-- A ready task other than the current one, and a bound for its waiting. -/
structure AwaitsTurn (task most : Nat) (machine : Machine)
    (created : List Nat) (queues : Queues) : Prop where
  invariant : Invariant machine created queues
  ready : task ∈ queues.run
  other : task ≠ machine.currentTask
  bound :
    2 * (turnOrder queues.run machine.currentTask).idxOf task +
      marked machine ≤ most

/-- The task waits for its turn, at most for this number of ticks. -/
def Awaits (task most : Nat) (machine : Machine) : Prop :=
  ∃ created queues, AwaitsTurn task most machine created queues

section Turns

variable {layout : Layout} {machine after : Machine} {queues later : Queues}
  {created creates front back sleep event joined order rest : List Nat}
  {task first most : Nat}

theorem marked_le (machine : Machine) : marked machine ≤ 1 := by
  rw [marked]
  split
  next => exact Nat.le_refl 1
  next => exact Nat.zero_le 1

/-- The mark of a machine depends on the field of its current task only. -/
theorem marked_congr (current : after.currentTask = machine.currentTask)
    (flag : machine.currentTask ≠ 0 →
      taskSwitchedInTimeSlice after.mem machine.currentTask =
        taskSwitchedInTimeSlice machine.mem machine.currentTask) :
    marked after = marked machine := by
  have same : KeepsSlice after .timer ↔ KeepsSlice machine .timer := by
    rw [KeepsSlice, KeepsSlice, current]
    constructor
    · rintro ⟨cause, busy, isMarked⟩
      exact ⟨cause, busy, flag busy ▸ isMarked⟩
    · rintro ⟨cause, busy, isMarked⟩
      exact ⟨cause, busy, (flag busy).symm ▸ isMarked⟩
  simp only [marked, same]

/-- The length of the run queue is what its counter says. -/
theorem runQueue_len (holds : Invariant machine created queues) :
    machine.runQueue.len.toNat = queues.run.length := by
  have length := holds.perm.length_eq
  have room := holds.room
  rw [Queues.all, List.length_append, maxHeapPages] at *
  rw [holds.represents.run.len, BitVec.toNat_ofNat]
  omega

theorem growth_of_joined (holds : Invariant machine created queues)
    (holdsAfter : Invariant after creates later)
    (run : later.run = queues.run ++ joined) :
    growth machine after = joined.length := by
  rw [growth, runQueue_len holds, runQueue_len holdsAfter, run,
    List.length_append]
  omega

/-- Nobody who joins is the current task. -/
theorem current_not_joined (holds : Invariant machine created queues)
    (ring : QueueRing after.mem after.runQueue (queues.run ++ joined)) :
    machine.currentTask ∉ joined := by
  intro new
  rcases holds.current with idle | ready
  · have page := ring.pages machine.currentTask (by simp [new])
    exact page.ne_null idle
  · exact List.disjoint_of_nodup_append ring.ring.nodup ready new

/-- Behind the next one in the order, a task moves up. -/
theorem idxOf_behind (inOrder : task ∈ first :: rest)
    (other : first ≠ task) :
    task ∈ rest ∧ (first :: rest).idxOf task = rest.idxOf task + 1 := by
  constructor
  · exact (List.mem_cons.mp inOrder).resolve_left other.symm
  · exact List.idxOf_cons_ne rest other

/-- The turn goes to the first task of the order. -/
theorem nextTurn_eq (holds : Invariant machine created queues)
    (next : turnOrder queues.run machine.currentTask = first :: rest) :
    nextTurn machine = some first := by
  have ring := holds.represents.run
  rcases queues with ⟨run, sleep, event⟩
  rcases holds.current with idle | ready
  · have unknown : machine.currentTask ∉ run := fun known =>
      (ring.pages _ known).ne_null idle
    rw [turnOrder_of_not_mem unknown] at next
    subst next
    have ends : ¬KeepsSlice machine .timer := fun keeps => keeps.2.1 idle
    have starts : turn machine .timer = some first :=
      turn_of_idle holds.represents idle
    rwa [turn, if_neg ends] at starts
  · have busy := (ring.pages _ ready).ne_null
    rcases List.eq_append_cons_of_mem ready with ⟨front, back, rfl, fresh⟩
    rw [turnOrder_of_split fresh] at next
    have nonEmpty : machine.runQueue.head ≠ 0 := fun none => by
      have isEmpty := ring.head_eq_zero_iff.mp none
      simp at isEmpty
    have several : front ++ back ≠ [] := by
      intro alone
      rcases List.append_eq_nil_iff.mp alone with ⟨rfl, rfl⟩
      cases next
    rcases next_of_leaving ring several with ⟨successor, _, different⟩
    rw [next, List.headD_cons] at successor
    rw [nextTurn, if_neg nonEmpty, if_pos busy, if_pos different.symm,
      successor]

/-! ## One step -/

/-- Tasks which join make the waiting longer by two ticks each. -/
theorem AwaitsTurn.grow (awaits : AwaitsTurn task most machine created queues)
    (holds : Invariant after creates later)
    (run : later.run = queues.run ++ joined)
    (current : after.currentTask = machine.currentTask)
    (mark : marked after = marked machine) :
    AwaitsTurn task (most + 2 * growth machine after) after creates later := by
  have bound := awaits.bound
  have ring := holds.represents.run
  rw [run] at ring
  have new := current_not_joined awaits.invariant ring
  have late := idxOf_turnOrder_append awaits.ready awaits.other new
  refine ⟨holds, ?_, ?_, ?_⟩
  · rw [run]
    exact List.mem_append_left _ awaits.ready
  · rw [current]
    exact awaits.other
  · rw [growth_of_joined awaits.invariant holds run, run, current, mark]
    omega

/-- When the turn is passed on to another task, the waiting gets shorter. -/
theorem AwaitsTurn.passed {last : List Nat}
    (holds : Invariant after creates later) (inOrder : task ∈ first :: rest)
    (current : after.currentTask = first) (other : first ≠ task)
    (next : turnOrder later.run first = rest ++ last)
    (ready : task ∈ later.run)
    (bound : 2 * (first :: rest).idxOf task ≤ most) :
    0 < most ∧ AwaitsTurn task (most - 1) after creates later := by
  rcases idxOf_behind inOrder other with ⟨inRest, position⟩
  have mark := marked_le after
  rw [position] at bound
  refine ⟨by omega, holds, ready, ?_, ?_⟩
  · rw [current]
    exact other.symm
  · rw [current, next, List.idxOf_append_of_mem inRest]
    omega

/-- A sleep of the current task passes the turn on. -/
theorem AwaitsTurn.leave
    (awaits : AwaitsTurn task most machine created queues)
    (run : queues.run = front ++ machine.currentTask :: back)
    (holds : Invariant after creates later)
    (left : later.run = front ++ back)
    (current : after.currentTask =
      if front ++ back = [] then 0 else next machine.mem machine.currentTask)
    (waits : after.currentTask ≠ task) :
    ∃ less, Awaits task less after ∧ less ≤ most := by
  have bound := awaits.bound
  have ring := awaits.invariant.represents.run
  have inOrder := mem_turnOrder awaits.ready awaits.other
  have ready := awaits.ready
  rw [run] at bound ring inOrder ready
  have nodup := ring.ring.nodup
  have fresh : machine.currentTask ∉ front := fun inFront =>
    (List.nodup_append.mp nodup).2.2 _ inFront _ List.mem_cons_self rfl
  have known : task ∈ front ++ back := by
    have other := awaits.other
    simp only [List.mem_append, List.mem_cons] at ready ⊢
    tauto
  have several : front ++ back ≠ [] := List.ne_nil_of_mem known
  cases turns : turnOrder (front ++ machine.currentTask :: back)
      machine.currentTask with
  | nil =>
      rw [turns] at inOrder
      cases inOrder
  | cons first rest =>
      have order := turns
      rw [turnOrder_of_split fresh] at order
      have successor := (next_of_leaving ring several).1
      rw [order, List.headD_cons] at successor
      rw [if_neg several, successor] at current
      have after_order : turnOrder later.run first = rest ++ [] := by
        rw [left, List.append_nil]
        exact turnOrder_leave nodup turns
      rw [turns] at bound inOrder
      have lower : 2 * (first :: rest).idxOf task ≤ most := by omega
      rcases AwaitsTurn.passed holds inOrder current (current ▸ waits)
        after_order (left ▸ known) lower with ⟨_, awaitsAfter⟩
      exact ⟨_, ⟨_, _, awaitsAfter⟩, Nat.sub_le most 1⟩

/-- A timer interrupt takes the mark away, or passes the turn on. -/
theorem AwaitsTurn.tick
    (awaits : AwaitsTurn task most machine created queues)
    (taken : Step layout machine .timer after)
    (waits : after.currentTask ≠ task) :
    ∃ less, Awaits task less after ∧
      less + 1 ≤ most + 2 * growth machine after := by
  have bound := awaits.bound
  have represents := awaits.invariant.represents
  rcases timer_effect awaits.invariant taken with
    ⟨entering, _, _, _, entered, same, before, holds, current, _⟩
  have mark : marked entering = marked machine := by
    apply marked_congr same
    intro busy
    rcases awaits.invariant.current with idle | ready
    · exact absurd idle busy
    · have page := represents.run.pages _ ready
      have field := before machine.currentTask page
      have flag := congrArg Fields.taskSwitchedInTimeSlice field
      apply flag.trans
      split
      next => rfl
      next => rfl
  have joins := awaits.grow entered rfl same mark
  have grown : growth machine entering = growth machine after :=
    (growth_of_joined awaits.invariant entered rfl).trans
      (growth_of_joined awaits.invariant holds rfl).symm
  rw [grown] at joins
  have later := joins.bound
  by_cases keeps : KeepsSlice entering .timer
  · have stays : after.currentTask = machine.currentTask := by
      rw [current, turn, if_pos keeps]
      rfl
    have unmarked : marked after = 0 := by
      have busy := keeps.2.1
      rw [same] at busy
      have page : IsHeapPage machine.currentTask := by
        rcases awaits.invariant.current with idle | ready
        · exact absurd idle busy
        · exact represents.run.pages _ ready
      have flag := flag_timer awaits.invariant taken page
      rw [if_pos rfl] at flag
      rw [marked, if_neg]
      rintro ⟨_, _, isMarked⟩
      rw [stays] at isMarked
      exact isMarked flag
    rw [marked, if_pos keeps, same] at later
    refine ⟨_, ⟨created, _, holds, joins.ready, ?_, Nat.le_refl _⟩, ?_⟩
    · rw [stays]
      exact awaits.other
    · rw [unmarked, stays]
      omega
  · have inOrder := mem_turnOrder joins.ready joins.other
    cases turns : turnOrder (wokenSleepers machine queues).run
        entering.currentTask with
    | nil =>
        rw [turns] at inOrder
        cases inOrder
    | cons first rest =>
        have chosen := nextTurn_eq entered turns
        have isFirst : after.currentTask = first := by
          rw [current, turn, if_neg keeps, chosen]
          rfl
        rcases turnOrder_next entered.represents.run.ring.nodup turns with
          ⟨last, following⟩
        rw [turns] at later inOrder
        rcases AwaitsTurn.passed holds inOrder isFirst (isFirst ▸ waits)
          following joins.ready (Nat.le_of_add_right_le later) with
          ⟨positive, awaitsAfter⟩
        exact ⟨_, ⟨_, _, awaitsAfter⟩, by omega⟩

/-- Every step shortens the waiting, apart from the tasks which join. -/
theorem Awaits.step {event : Event} (awaits : Awaits task most machine)
    (taken : Step layout machine event after)
    (waits : after.currentTask ≠ task) :
    ∃ less, Awaits task less after ∧
      less + ticks event ≤ most + 2 * growth machine after := by
  rcases awaits with ⟨created, queues, awaits⟩
  have holds := awaits.invariant
  cases event with
  | taskInit file =>
      rcases taskInit_effect holds taken with
        ⟨invariant, _, current, _, _, effect⟩
      have mark : marked after = marked machine := by
        apply marked_congr current
        intro busy
        have ready := holds.current.resolve_left busy
        have known : machine.currentTask ∈ queues.all :=
          List.mem_append_left _ ready
        exact congrArg Fields.taskSwitchedInTimeSlice
          (effect _ (.inl known))
      exact ⟨_, ⟨_, _, awaits.grow invariant rfl current mark⟩,
        Nat.le_refl _⟩
  | timer => exact awaits.tick taken waits
  | keyboard status data =>
      rcases keyboard_effect holds taken with ⟨invariant, current, _⟩
      have mark : marked after = marked machine := by
        apply marked_congr current
        intro busy
        have ready := holds.current.resolve_left busy
        exact flag_keyboard holds taken (holds.represents.run.pages _ ready)
      exact ⟨_, ⟨_, _, awaits.grow invariant rfl current mark⟩,
        Nat.le_refl _⟩
  | wakeupAfterMsec msec =>
      rcases queues with ⟨run, sleep, waiting⟩
      rcases sleep_effect holds taken with
        ⟨front, back, split, invariant, current, _, _⟩
      rcases awaits.leave split invariant rfl current waits with
        ⟨less, shorter, below⟩
      exact ⟨less, shorter, Nat.le_add_right_of_le below⟩
  | wakeupAfterEvent eventType =>
      rcases queues with ⟨run, sleep, waiting⟩
      rcases wait_effect holds taken with
        ⟨front, back, split, invariant, current, _, _⟩
      rcases awaits.leave split invariant rfl current waits with
        ⟨less, shorter, below⟩
      exact ⟨less, shorter, Nat.le_add_right_of_le below⟩

/-! ## Runs -/

theorem PassedBy.awaits {start : Machine} {timers joined : Nat}
    (passed : PassedBy layout start task timers joined machine)
    (begins : start.currentTask ≠ task → Awaits task most start) :
    ∃ less, Awaits task less machine ∧ less + timers ≤ most + 2 * joined := by
  induction passed with
  | start waits => exact ⟨most, begins waits, Nat.le_refl most⟩
  | step before taken waits induction =>
      rcases induction with ⟨less, awaits, below⟩
      rcases awaits.step taken waits with ⟨later, awaitsAfter, shorter⟩
      exact ⟨later, awaitsAfter, by omega⟩

end Turns

/--
From every reachable state on, a ready task stays ready until it gets its turn,
the next timer interrupt can always come, and at most two timer interrupts pass
it by for each task whose turn comes before and for each one which joins the
run queue, and one more.
-/
theorem getsTurn {layout : Layout} {mem : Memory} {start machine : Machine}
    {created ready : List Nat} {task timers joined : Nat}
    (reachable : Reachable layout mem start created)
    (queue : QueueRing start.mem start.runQueue ready)
    (isReady : task ∈ ready)
    (passed : PassedBy layout start task timers joined machine) :
    Ready task machine ∧
      (∃ after, Step layout machine .timer after) ∧
      timers ≤ 2 * (turnOrder ready start.currentTask).idxOf task + 1 +
        2 * joined := by
  rcases run_invariant reachable with ⟨queues, holds⟩
  have same : ready = queues.run := queue.unique holds.represents.run
  have begins : start.currentTask ≠ task →
      Awaits task (2 * (turnOrder ready start.currentTask).idxOf task + 1)
        start := by
    intro waits
    have mark := marked_le start
    refine ⟨created, queues, holds, same ▸ isReady, waits.symm, ?_⟩
    rw [same]
    omega
  rcases passed.awaits begins with
    ⟨less, ⟨creates, later, awaits⟩, below⟩
  refine ⟨?_, awaits.invariant.progress trivial, by omega⟩
  exact awaits.invariant.represents.run.onQueue_iff.mpr awaits.ready

/-- The second of two tasks is passed by when the timer starts the first. -/
theorem secondTask_getsTurn :
    ∃ start machine created first second joined,
      Reachable Layout.sample (fun _ => 0#8) start created ∧
      QueueRing start.mem start.runQueue [first, second] ∧
      PassedBy Layout.sample start second 1 joined machine ∧
      Ready second machine ∧
      ∃ after, Step Layout.sample machine .timer after := by
  rcases (Known.boot Layout.sample fun _ => 0#8).creates (by simp)
    { name := 0x12000, dataBaseAddr := 0x12020 } with
    ⟨one, first, _, firstKnown, firstPage, firstIdle⟩
  rcases firstKnown.creates (by simp)
    { name := 0x13000, dataBaseAddr := 0x13020 } with
    ⟨start, second, _, known, page, idle⟩
  have queue : QueueRing start.mem start.runQueue [first, second] :=
    known.invariant.represents.run
  have isIdle : start.currentTask = 0 := idle.trans firstIdle
  have ticking : ∃ after, Step Layout.sample start .timer after :=
    known.invariant.progress trivial
  rcases ticking with ⟨machine, ticked⟩
  have current : machine.currentTask = first :=
    (start_effect known.invariant isIdle ticked).2.1
  have different : first ≠ second := by
    have nodup := queue.ring.nodup
    simpa using nodup
  have begins : start.currentTask ≠ second := by
    rw [isIdle]
    exact page.ne_null.symm
  have passed : PassedBy Layout.sample start second (0 + ticks .timer)
      (0 + growth start machine) machine :=
    .step (.start begins) ticked (by rwa [current])
  have turn := getsTurn known.reachable queue (by simp) passed
  exact ⟨start, machine, _, first, second, _, known.reachable, queue, passed,
    turn.1, turn.2.1⟩

end MagicalOs.Kernel.Fairness
