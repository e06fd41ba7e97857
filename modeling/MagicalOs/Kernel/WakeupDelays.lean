import MagicalOs.Library.Countdown
import MagicalOs.Kernel.SleepTimes

/-!
# How late a sleeping task is woken

Both traversals stop behind a head which they wake, so a task can be passed by
although its turn has come.  Each time this happens the task in front of it
leaves the queue, and new tasks go to its end.  A sleeper is therefore woken at
most as many ticks late as there were sleepers in front of it.  A task which
waits for the keyboard is passed by exactly once for each of the tasks at the
front of the queue which wait for the keyboard too.

The runs are arbitrary: tasks are created, sleep and wait in any order.
-/

namespace MagicalOs.Kernel.WakeupDelays

open MagicalOs.Library.ByteMemory
open MagicalOs.Library.Countdown
open MagicalOs.Kernel.HeapPages
open MagicalOs.Kernel.MachineState
open MagicalOs.Kernel.TaskStructure
open MagicalOs.Kernel.SchedQueues
open MagicalOs.Kernel.Scheduler
open MagicalOs.Kernel.TaskQueues
open MagicalOs.Kernel.SchedTraversal
open MagicalOs.Kernel.Dispatch
open MagicalOs.Kernel.KernelRuns
open MagicalOs.Kernel.QueueInvariant
open MagicalOs.Kernel.TaskFields
open MagicalOs.Kernel.StepEffects
open MagicalOs.Kernel.SleepTimes

/-! ## One traversal -/

section Traversal

variable {due : Nat → Bool} {front back : List Nat} {first task : Nat}

/-- A head which is due is woken alone, and the others move up. -/
theorem wake_of_dueHead (isDue : due first = true) (front back : List Nat)
    (task : Nat) :
    wake due (first :: front ++ task :: back) =
        (front ++ task :: back, [first]) ∧
      visited due (first :: front ++ task :: back) = [first] := by
  constructor
  · rw [List.cons_append, wake, if_pos isDue]
  · rw [List.cons_append, visited, if_pos isDue]

/-- Behind a head which is not due, every task which is due is woken. -/
theorem mem_wake (early : ∀ head ∈ front.head?, due head = false)
    (isDue : due task = true) :
    task ∈ (wake due (front ++ task :: back)).2 := by
  cases front with
  | nil =>
      rw [List.nil_append, wake, if_pos isDue]
      exact List.mem_singleton_self task
  | cons head front =>
      have headEarly : due head = false := early head rfl
      rw [List.cons_append, wake, if_neg (by simp [headEarly])]
      simp [isDue]

/-- A task which is not due moves up, if at all. -/
theorem wake_of_early (early : ∀ head ∈ front.head?, due head = false)
    (notDue : due task = false) (back : List Nat) :
    visited due (front ++ task :: back) = front ++ task :: back ∧
      ∃ kept others, (wake due (front ++ task :: back)).1 =
        kept ++ task :: others ∧ kept.length ≤ front.length := by
  cases front with
  | nil =>
      rw [List.nil_append, visited, wake, if_neg (by simp [notDue]),
        if_neg (by simp [notDue])]
      exact ⟨rfl, [], _, rfl, Nat.le_refl 0⟩
  | cons head front =>
      have headEarly : due head = false := early head rfl
      rw [List.cons_append, visited, wake, if_neg (by simp [headEarly]),
        if_neg (by simp [headEarly])]
      refine ⟨rfl, head :: front.filter fun task => !due task,
        back.filter fun task => !due task, ?_, ?_⟩
      · simp [notDue]
      · exact Nat.succ_le_succ (List.length_filter_le _ front)

end Traversal

/-! ## Sleepers -/

/-- The event is a timer interrupt. -/
def isTimer : Event → Bool
  | .taskInit _ => false
  | .timer => true
  | .keyboard _ _ => false
  | .wakeupAfterMsec _ => false
  | .wakeupAfterEvent _ => false

/-- The event is a keyboard interrupt. -/
def isKeyboard : Event → Bool
  | .taskInit _ => false
  | .timer => false
  | .keyboard _ _ => true
  | .wakeupAfterMsec _ => false
  | .wakeupAfterEvent _ => false

/-- The ticks a sleeper needs, between those with and without its delay. -/
structure SleepsFor (task least most : Nat) (machine : Machine)
    (created : List Nat) (queues : Queues) (front back : List Nat) :
    Prop where
  invariant : Invariant machine created queues
  position : queues.sleep = front ++ task :: back
  lower : least ≤ wakeTick (wakeupAfterMsec machine.mem task)
  upper :
    wakeTick (wakeupAfterMsec machine.mem task) + front.length ≤ most

/-- The task is asleep, at least and at most for these numbers of ticks. -/
def Sleeps (task least most : Nat) (machine : Machine) : Prop :=
  ∃ created queues front back,
    SleepsFor task least most machine created queues front back

/-- The task is ready. -/
def Ready (task : Nat) (machine : Machine) : Prop :=
  OnQueue machine.mem machine.runQueue task

section Sleepers

variable {layout : Layout} {mem : Memory} {machine after asleep : Machine}
  {created front back : List Nat} {queues : Queues} {event : Event}
  {msec : Word} {task least most : Nat}

theorem wakeTick_pos (msec : Word) : 0 < wakeTick msec :=
  Nat.lt_of_lt_of_le Nat.zero_lt_one (Nat.le_max_left _ _)

/-- The sleep which ends at this tick. -/
theorem wakeTick_of_due (isDue : sleeperDue machine.mem task = true) :
    wakeTick (wakeupAfterMsec machine.mem task) = 1 := by
  have short : ¬timerTickMs < wakeupAfterMsec machine.mem task := by
    simpa [sleeperDue] using isDue
  rw [timerTickMs, BitVec.lt_def] at short
  change ¬10 < _ at short
  rw [wakeTick]
  omega

/-- A longer sleep needs one more tick than it does after the tick. -/
theorem wakeTick_of_early (early : sleeperDue machine.mem task = false) :
    wakeTick (wakeupAfterMsec machine.mem task) =
      wakeTick (wakeupAfterMsec machine.mem task - timerTickMs) + 1 := by
  have long : timerTickMs < wakeupAfterMsec machine.mem task := by
    simpa [sleeperDue] using early
  rw [timerTickMs, BitVec.lt_def] at long
  change 10 < _ at long
  have difference :
      (wakeupAfterMsec machine.mem task - timerTickMs).toNat =
        (wakeupAfterMsec machine.mem task).toNat - 10 := by
    rw [timerTickMs, BitVec.toNat_sub_of_le]
    · rfl
    · rw [BitVec.le_def]
      change 10 ≤ _
      omega
  rw [wakeTick, wakeTick, difference]
  omega

/-- A queue only gets new tasks at its end, and the old ones are unchanged. -/
structure Kept {Time : Type} (before after : List Nat)
    (time later : Nat → Time) : Prop where
  joined : ∃ joined, after = before ++ joined
  times : ∀ task ∈ before, later task = time task

theorem Kept.of_eq {Time : Type} {tasks : List Nat} {time later : Nat → Time}
    (times : ∀ task ∈ tasks, later task = time task) :
    Kept tasks tasks time later :=
  ⟨⟨[], (List.append_nil tasks).symm⟩, times⟩

/-- The sleepers are kept except by ticks, the waiting tasks except by keys. -/
theorem queues_kept (holds : Invariant machine created queues)
    (taken : Step layout machine event after) :
    ∃ created later, Invariant after created later ∧
      (isTimer event = false →
        Kept queues.sleep later.sleep (wakeupAfterMsec machine.mem)
          (wakeupAfterMsec after.mem)) ∧
      (isKeyboard event = false →
        Kept queues.event later.event (wakeupAfterEvent machine.mem)
          (wakeupAfterEvent after.mem)) := by
  have sleepPage := holds.represents.sleep.pages
  have eventPage := holds.represents.event.pages
  cases event with
  | taskInit file =>
      rcases taskInit_effect holds taken with
        ⟨invariant, _, _, _, _, effect⟩
      refine ⟨_, _, invariant, fun _ => .of_eq ?_, fun _ => .of_eq ?_⟩
      · intro task member
        have known : task ∈ queues.all := by simp [Queues.all, member]
        exact congrArg Fields.wakeupAfterMsec (effect task (.inl known))
      · intro task member
        have known : task ∈ queues.all := by simp [Queues.all, member]
        exact congrArg Fields.wakeupAfterEvent (effect task (.inl known))
  | timer =>
      rcases timer_effect holds taken with
        ⟨entering, _, _, _, _, _, before, invariant, _, effect⟩
      refine ⟨_, _, invariant, fun other => ?_, fun _ => .of_eq ?_⟩
      · cases other
      · intro task member
        have page := eventPage task member
        have field := congrArg Fields.wakeupAfterEvent (before task page)
        apply (congrArg Fields.wakeupAfterEvent (effect task page)).trans
        apply field.trans
        split
        next => rfl
        next => rfl
  | keyboard status data =>
      rcases keyboard_effect holds taken with ⟨invariant, _, effect⟩
      refine ⟨_, _, invariant, fun _ => .of_eq ?_, fun other => ?_⟩
      · intro task member
        have page := sleepPage task member
        apply (congrArg Fields.wakeupAfterMsec (effect task page)).trans
        split
        next =>
          rw [notified]
          split
          next => rfl
          next => rfl
        next => rfl
      · cases other
  | wakeupAfterMsec time =>
      rcases queues with ⟨run, sleep, waiting⟩
      rcases sleep_effect holds taken with
        ⟨others, rest, split, invariant, _, _, effect⟩
      refine ⟨_, _, invariant, fun _ => ⟨⟨_, rfl⟩, ?_⟩, fun _ => .of_eq ?_⟩
      · intro task member
        have other : task ≠ machine.currentTask := by
          rintro rfl
          apply List.disjoint_of_nodup_append holds.represents.nodup
            (show machine.currentTask ∈ run by simp [split])
          exact List.mem_append_left _ member
        have page := sleepPage task member
        have field := congrArg Fields.wakeupAfterMsec (effect task page)
        exact field.trans (if_neg other)
      · intro task member
        have page := eventPage task member
        exact congrArg Fields.wakeupAfterEvent (effect task page)
  | wakeupAfterEvent eventType =>
      rcases queues with ⟨run, sleep, waiting⟩
      rcases wait_effect holds taken with
        ⟨others, rest, split, invariant, _, _, effect⟩
      refine ⟨_, _, invariant, fun _ => .of_eq ?_, fun _ => ⟨⟨_, rfl⟩, ?_⟩⟩
      · intro task member
        have page := sleepPage task member
        exact congrArg Fields.wakeupAfterMsec (effect task page)
      · intro task member
        have other : task ≠ machine.currentTask := by
          rintro rfl
          apply List.disjoint_of_nodup_append holds.represents.nodup
            (show machine.currentTask ∈ run by simp [split])
          exact List.mem_append_right _ member
        have page := eventPage task member
        have field := congrArg Fields.wakeupAfterEvent (effect task page)
        exact field.trans (if_neg other)

/-- A step which is no tick leaves a sleeper where it is. -/
theorem Sleeps.others (sleeps : Sleeps task least most machine)
    (different : isTimer event = false)
    (taken : Step layout machine event after) :
    Sleeps task least most after := by
  rcases sleeps with ⟨created, queues, front, back, sleeps⟩
  rcases queues_kept sleeps.invariant taken with
    ⟨creates, later, invariant, keeps, _⟩
  rcases keeps different with ⟨⟨joined, sleepers⟩, times⟩
  have same := times task (by simp [sleeps.position])
  refine ⟨creates, later, front, back ++ joined, invariant, ?_, ?_, ?_⟩
  · rw [sleepers, sleeps.position, List.append_assoc, List.cons_append]
  · rw [same]
    exact sleeps.lower
  · rw [same]
    exact sleeps.upper

/-- A tick wakes a sleeper, shortens its time, or wakes the head before it. -/
theorem Sleeps.tick (sleeps : Sleeps task least most machine)
    (taken : Step layout machine .timer after) :
    (least ≤ 1 ∧ Ready task after) ∨
      Sleeps task (least - 1) (most - 1) after := by
  rcases sleeps with ⟨created, queues, front, back, sleeps⟩
  have lower := sleeps.lower
  have upper := sleeps.upper
  have position := sleeps.position
  have represents := sleeps.invariant.represents
  have page : IsHeapPage task :=
    represents.sleep.pages task (by simp [position])
  rcases timer_effect sleeps.invariant taken with
    ⟨entering, _, _, _, _, _, before, invariant, _, effect⟩
  have field : wakeupAfterMsec after.mem task =
      wakeupAfterMsec entering.mem task :=
    congrArg Fields.wakeupAfterMsec (effect task page)
  have ticked := before task page
  rw [position] at ticked
  by_cases early :
      ∀ head ∈ front.head?, sleeperDue machine.mem head = false
  · cases isDue : sleeperDue machine.mem task with
    | true =>
        left
        constructor
        · rwa [wakeTick_of_due isDue] at lower
        · apply invariant.represents.run.onQueue_iff.mpr
          rw [wokenSleepers, position]
          exact List.mem_append_right _ (mem_wake early isDue)
    | false =>
        right
        rcases wake_of_early early isDue back with
          ⟨visits, kept, others, stays, short⟩
        have long : timerTickMs < (fields machine.mem task).wakeupAfterMsec :=
          by simpa [sleeperDue, fields] using isDue
        rw [visits, if_pos (by simp), slept, if_pos long] at ticked
        have shorter : wakeupAfterMsec after.mem task =
            wakeupAfterMsec machine.mem task - timerTickMs :=
          field.trans (congrArg Fields.wakeupAfterMsec ticked)
        have ticks := wakeTick_of_early isDue
        rw [← shorter] at ticks
        refine ⟨created, _, kept, others, invariant, ?_, ?_, ?_⟩
        · rw [wokenSleepers, position]
          exact stays
        · omega
        · omega
  · right
    cases front with
    | nil => exact absurd (by simp) early
    | cons first rest =>
        have isDue : sleeperDue machine.mem first = true := by
          simpa using early
        rcases wake_of_dueHead isDue rest back task with ⟨woken, visits⟩
        have nodup := represents.sleep.ring.nodup
        rw [position] at nodup
        have other : task ∉ [first] := by
          have fresh := (List.nodup_cons.mp nodup).1
          rw [List.mem_singleton]
          rintro rfl
          exact fresh (by simp)
        rw [visits, if_neg other] at ticked
        have same : wakeupAfterMsec after.mem task =
            wakeupAfterMsec machine.mem task :=
          field.trans (congrArg Fields.wakeupAfterMsec ticked)
        refine ⟨created, _, rest, back, invariant, ?_, ?_, ?_⟩
        · rw [wokenSleepers, position, woken]
        · rw [same]
          omega
        · rw [same]
          rw [List.length_cons] at upper
          omega

/-- The ticks count a sleep down, in runs of any steps. -/
theorem sleeps_countsDown (layout : Layout) (task : Nat) :
    CountsDown (Step layout) isTimer (Sleeps task) (Ready task) where
  positive := by
    rintro least most machine ⟨created, queues, front, back, sleeps⟩
    have upper := sleeps.upper
    have positive := wakeTick_pos (wakeupAfterMsec machine.mem task)
    omega
  counted := by
    intro least most machine event after sleeps counted taken
    cases event with
    | timer => exact sleeps.tick taken
    | taskInit file => cases counted
    | keyboard status data => cases counted
    | wakeupAfterMsec time => cases counted
    | wakeupAfterEvent eventType => cases counted
  others := fun sleeps different taken => sleeps.others different taken

/-- A sleeper is on the wake-up queue only. -/
theorem Sleeps.isAsleep (sleeps : Sleeps task least most machine) :
    Asleep machine task := by
  rcases sleeps with ⟨created, queues, front, back, sleeps⟩
  have represents := sleeps.invariant.represents
  have member : task ∈ queues.sleep := by simp [sleeps.position]
  constructor
  · exact represents.sleep.onQueue_iff.mpr member
  · intro ready
    exact List.disjoint_of_nodup_append represents.nodup
      (represents.run.onQueue_iff.mp ready)
      (List.mem_append_left _ member)

/-- A call puts the caller behind the sleepers there are. -/
theorem sleeps_of_call {tasks : List Nat}
    (holds : Invariant machine created queues)
    (sleepers : QueueRing machine.mem machine.wakeupQueue tasks)
    (called : Step layout machine (.wakeupAfterMsec msec) asleep) :
    Sleeps machine.currentTask (wakeTick msec)
      (wakeTick msec + tasks.length) asleep := by
  rcases queues with ⟨run, sleep, waiting⟩
  have same : tasks = sleep := sleepers.unique holds.represents.sleep
  rcases sleep_effect holds called with
    ⟨front, back, rfl, invariant, _, _, effect⟩
  have page := holds.represents.run.pages machine.currentTask (by simp)
  have field := congrArg Fields.wakeupAfterMsec (effect _ page)
  have time : wakeupAfterMsec asleep.mem machine.currentTask = msec :=
    field.trans (if_pos rfl)
  refine ⟨_, _, sleep, [], invariant, rfl, ?_, ?_⟩
  · rw [time]
  · rw [time, same]

/--
In every run after a call of `wakeup_after_msec`, the caller is asleep for the
ticks it has asked for, and it is woken by one of the following ticks, of which
there are no more than there were sleepers at the call.
-/
theorem wakes_in_time {tasks : List Nat} {later : Machine}
    {events : List Event} (reachable : Reachable layout mem machine created)
    (sleepers : QueueRing machine.mem machine.wakeupQueue tasks)
    (called : Step layout machine (.wakeupAfterMsec msec) asleep)
    (ran : Run (Step layout) asleep events later) :
    (events.countP isTimer < wakeTick msec →
      Asleep later machine.currentTask) ∧
    (wakeTick msec + tasks.length ≤ events.countP isTimer →
      ∃ front tick back woken, events = front ++ tick :: back ∧
        isTimer tick = true ∧
        Leads (Step layout) (fun state => Asleep state machine.currentTask)
          asleep (front ++ [tick]) woken ∧
        Run (Step layout) woken back later ∧
        Ready machine.currentTask woken ∧
        wakeTick msec ≤ front.countP isTimer + 1 ∧
        front.countP isTimer + 1 ≤ wakeTick msec + tasks.length) := by
  rcases run_invariant reachable with ⟨queues, holds⟩
  have sleeps := sleeps_of_call holds sleepers called
  have countdown := sleeps_countsDown layout machine.currentTask
  constructor
  · intro early
    exact (countdown.waits sleeps ran early).isAsleep
  · intro enough
    rcases countdown.reaches sleeps ran enough with
      ⟨front, tick, back, woken, split, counted, leads, rest, ready, bounds⟩
    refine ⟨front, tick, back, woken, split, counted, ?_, rest, ready, bounds⟩
    apply leads.mono
    rintro state ⟨least, most, sleeps⟩
    exact sleeps.isAsleep

/-- The first task, which runs while no other task exists. -/
theorem firstTask_running :
    ∃ machine created task,
      Known Layout.sample (fun _ => 0#8) machine created ⟨[task], [], []⟩ ∧
      machine.currentTask = task ∧ machine.currentTask ≠ 0 := by
  rcases (Known.boot Layout.sample fun _ => 0#8).creates (by simp)
    { name := 0x12000, dataBaseAddr := 0x12020 } with
    ⟨created, task, _, creation, page, idle⟩
  rcases creation.starts idle with ⟨started, _, running, current⟩
  exact ⟨started, _, task, running, current, current ▸ page.ne_null⟩

/-- A task which asks for five milliseconds, alone, needs one tick. -/
theorem firstTask_wakes_in_time :
    ∃ machine created asleep woken,
      Reachable Layout.sample (fun _ => 0#8) machine created ∧
      Step Layout.sample machine (.wakeupAfterMsec 5#32) asleep ∧
      Run (Step Layout.sample) asleep [.timer] woken ∧
      Ready machine.currentTask woken := by
  rcases firstTask_running with ⟨machine, created, task, known, _, busy⟩
  have called : Step Layout.sample machine (.wakeupAfterMsec 5#32)
      (callWakeupAfterMsec Layout.sample machine 5#32) := ⟨busy, 0, rfl⟩
  rcases sleep_effect known.invariant called with
    ⟨front, back, split, slept, _⟩
  have ticking : ∃ after, Step Layout.sample
      (callWakeupAfterMsec Layout.sample machine 5#32) .timer after :=
    slept.progress trivial
  rcases ticking with ⟨woken, ticked⟩
  have ran : Run (Step Layout.sample)
      (callWakeupAfterMsec Layout.sample machine 5#32) [.timer] woken :=
    .single trivial ticked
  have alone : QueueRing machine.mem machine.wakeupQueue [] :=
    known.invariant.represents.sleep
  have wakes :=
    (wakes_in_time known.reachable alone called ran).2 (by decide)
  rcases wakes with
    ⟨front, tick, back, state, events, _, leads, _, ready, _⟩
  refine ⟨machine, created, _, state, known.reachable, called, ?_, ready⟩
  cases front with
  | nil =>
      cases events
      exact leads.mono fun _ _ => trivial
  | cons event front =>
      have long := congrArg List.length events
      simp at long

end Sleepers

/-! ## Tasks which wait for the keyboard -/

/-- A task, and how many keyboard interrupts it still needs. -/
structure WaitsFor (task turns : Nat) (machine : Machine)
    (created : List Nat) (queues : Queues) (front back : List Nat) :
    Prop where
  invariant : Invariant machine created queues
  position : queues.event = front ++ task :: back
  waits : wakeupAfterEvent machine.mem task = eventTypeKbd
  turns :
    (front.takeWhile (waiterDue eventTypeKbd machine.mem)).length + 1 = turns

/-- The task waits for exactly this number of keyboard interrupts. -/
def Waits (task least most : Nat) (machine : Machine) : Prop :=
  least = most ∧ ∃ created queues front back,
    WaitsFor task most machine created queues front back

/-- The task is on the queue of waiting tasks, and not on the run queue. -/
def Awaiting (machine : Machine) (task : Nat) : Prop :=
  OnQueue machine.mem machine.wakeupEventQueue task ∧
    ¬OnQueue machine.mem machine.runQueue task

section Waiters

variable {layout : Layout} {mem : Memory} {machine after waiting : Machine}
  {created front back : List Nat} {queues : Queues} {event : Event}
  {task least most : Nat}

theorem takeWhile_congr {first second : Nat → Bool} {tasks : List Nat}
    (same : ∀ task ∈ tasks, first task = second task) :
    tasks.takeWhile first = tasks.takeWhile second := by
  induction tasks with
  | nil => rfl
  | cons head rest induction =>
      have later := induction fun task member =>
        same task (List.mem_cons_of_mem head member)
      rw [List.takeWhile_cons, List.takeWhile_cons, later,
        same head List.mem_cons_self]

/-- The tasks of a list are due in two memories alike. -/
theorem waiterDue_congr {before later : Memory} {tasks : List Nat}
    (same : ∀ task ∈ tasks,
      wakeupAfterEvent later task = wakeupAfterEvent before task) :
    tasks.takeWhile (waiterDue eventTypeKbd later) =
      tasks.takeWhile (waiterDue eventTypeKbd before) := by
  apply takeWhile_congr
  intro task member
  rw [waiterDue, waiterDue, same task member]

theorem Waits.others (waits : Waits task least most machine)
    (different : isKeyboard event = false)
    (taken : Step layout machine event after) :
    Waits task least most after := by
  rcases waits with ⟨exact, created, queues, front, back, waits⟩
  rcases queues_kept waits.invariant taken with
    ⟨creates, later, invariant, _, keeps⟩
  rcases keeps different with ⟨⟨joined, waiters⟩, events⟩
  have position := waits.position
  refine ⟨exact, creates, later, front, back ++ joined, invariant, ?_, ?_, ?_⟩
  · rw [waiters, position, List.append_assoc, List.cons_append]
  · rw [events task (by simp [position])]
    exact waits.waits
  · rw [waiterDue_congr fun task member =>
      events task (by simp [position, member])]
    exact waits.turns

/-- A keyboard interrupt wakes the task, or the waiting head before it. -/
theorem Waits.key {status data : Byte} (waits : Waits task least most machine)
    (taken : Step layout machine (.keyboard status data) after) :
    (least ≤ 1 ∧ Ready task after) ∨
      Waits task (least - 1) (most - 1) after := by
  rcases waits with ⟨exact, created, queues, front, back, waits⟩
  have turns := waits.turns
  have position := waits.position
  have represents := waits.invariant.represents
  have isDue : waiterDue eventTypeKbd machine.mem task = true := by
    simpa [waiterDue] using waits.waits
  rcases keyboard_effect waits.invariant taken with ⟨invariant, _, effect⟩
  by_cases early :
      ∀ head ∈ front.head?, waiterDue eventTypeKbd machine.mem head = false
  · left
    have none : front.takeWhile (waiterDue eventTypeKbd machine.mem) = [] := by
      cases front with
      | nil => rfl
      | cons head rest =>
          rw [List.takeWhile_cons, if_neg (by simpa using early)]
    rw [none] at turns
    constructor
    · rw [exact, ← turns]
      exact Nat.le_refl 1
    · apply invariant.represents.run.onQueue_iff.mpr
      rw [wokenWaiters, position]
      exact List.mem_append_right _ (mem_wake early isDue)
  · right
    cases front with
    | nil => exact absurd (by simp) early
    | cons first rest =>
        have headDue : waiterDue eventTypeKbd machine.mem first = true := by
          simpa using early
        rcases wake_of_dueHead headDue rest back task with ⟨woken, visits⟩
        have nodup := represents.event.ring.nodup
        rw [position] at nodup
        have fresh : first ∉ rest ++ task :: back :=
          (List.nodup_cons.mp nodup).1
        have same : ∀ other ∈ rest ++ task :: back,
            wakeupAfterEvent after.mem other =
              wakeupAfterEvent machine.mem other := by
          intro other member
          have inQueue : other ∈ queues.event := by
            rw [position]
            exact List.mem_cons_of_mem first member
          have field := effect other (represents.event.pages other inQueue)
          have notFirst : other ∉ [first] := by
            rw [List.mem_singleton]
            rintro rfl
            exact fresh member
          rw [position, visits, if_neg notFirst] at field
          exact congrArg Fields.wakeupAfterEvent field
        rw [List.takeWhile_cons, if_pos headDue, List.length_cons] at turns
        refine ⟨by omega, created, _, rest, back, invariant, ?_, ?_, ?_⟩
        · rw [wokenWaiters, position, woken]
        · rw [same task (by simp)]
          exact waits.waits
        · rw [waiterDue_congr fun other member => same other (by simp [member])]
          omega

/-- The keyboard interrupts count a waiting task down, in runs of any steps. -/
theorem waits_countsDown (layout : Layout) (task : Nat) :
    CountsDown (Step layout) isKeyboard (Waits task) (Ready task) where
  positive := by
    rintro least most machine ⟨_, created, queues, front, back, waits⟩
    have turns := waits.turns
    omega
  counted := by
    intro least most machine event after waits counted taken
    cases event with
    | keyboard status data => exact waits.key taken
    | taskInit file => cases counted
    | timer => cases counted
    | wakeupAfterMsec time => cases counted
    | wakeupAfterEvent eventType => cases counted
  others := fun waits different taken => waits.others different taken

theorem Waits.isAwaiting (waits : Waits task least most machine) :
    Awaiting machine task := by
  rcases waits with ⟨_, created, queues, front, back, waits⟩
  have represents := waits.invariant.represents
  have member : task ∈ queues.event := by simp [waits.position]
  constructor
  · exact represents.event.onQueue_iff.mpr member
  · intro ready
    exact List.disjoint_of_nodup_append represents.nodup
      (represents.run.onQueue_iff.mp ready)
      (List.mem_append_right _ member)

/-- A call puts the caller behind the tasks which wait already. -/
theorem waits_of_call {tasks : List Nat}
    (holds : Invariant machine created queues)
    (waiters : QueueRing machine.mem machine.wakeupEventQueue tasks)
    (called : Step layout machine (.wakeupAfterEvent eventTypeKbd) waiting) :
    Waits machine.currentTask
      ((tasks.takeWhile (waiterDue eventTypeKbd machine.mem)).length + 1)
      ((tasks.takeWhile (waiterDue eventTypeKbd machine.mem)).length + 1)
      waiting := by
  rcases queues with ⟨run, sleep, event⟩
  have isEvent : tasks = event := waiters.unique holds.represents.event
  subst isEvent
  rcases wait_effect holds called with
    ⟨front, back, rfl, invariant, _, _, effect⟩
  have page := holds.represents.run.pages machine.currentTask (by simp)
  have field := congrArg Fields.wakeupAfterEvent (effect _ page)
  have same : ∀ task ∈ tasks, wakeupAfterEvent waiting.mem task =
      wakeupAfterEvent machine.mem task := by
    intro task member
    have other : task ≠ machine.currentTask := by
      rintro rfl
      apply List.disjoint_of_nodup_append holds.represents.nodup
        (show machine.currentTask ∈ front ++ machine.currentTask :: back by
          simp)
      exact List.mem_append_right _ member
    have taskPage := holds.represents.event.pages task member
    have unchanged := congrArg Fields.wakeupAfterEvent (effect task taskPage)
    exact unchanged.trans (if_neg other)
  refine ⟨rfl, _, _, tasks, [], invariant, rfl, ?_, ?_⟩
  · exact field.trans (if_pos rfl)
  · rw [waiterDue_congr same]

/--
In every run after a task has begun to wait for the keyboard, it is woken by
exactly the keyboard interrupt behind as many others as there were tasks at the
front of the queue which waited for the keyboard as well.
-/
theorem wakes_in_turn {tasks : List Nat} {later : Machine}
    {events : List Event} (reachable : Reachable layout mem machine created)
    (waiters : QueueRing machine.mem machine.wakeupEventQueue tasks)
    (called : Step layout machine (.wakeupAfterEvent eventTypeKbd) waiting)
    (ran : Run (Step layout) waiting events later) :
    (events.countP isKeyboard ≤
        (tasks.takeWhile (waiterDue eventTypeKbd machine.mem)).length →
      Awaiting later machine.currentTask) ∧
    ((tasks.takeWhile (waiterDue eventTypeKbd machine.mem)).length <
        events.countP isKeyboard →
      ∃ front key back woken, events = front ++ key :: back ∧
        isKeyboard key = true ∧
        Leads (Step layout) (fun state => Awaiting state machine.currentTask)
          waiting (front ++ [key]) woken ∧
        Run (Step layout) woken back later ∧
        Ready machine.currentTask woken ∧
        front.countP isKeyboard =
          (tasks.takeWhile (waiterDue eventTypeKbd machine.mem)).length) := by
  rcases run_invariant reachable with ⟨queues, holds⟩
  have waits := waits_of_call holds waiters called
  have countdown := waits_countsDown layout machine.currentTask
  constructor
  · intro early
    exact (countdown.waits waits ran (Nat.lt_succ_of_le early)).isAwaiting
  · intro enough
    rcases countdown.reaches waits ran enough with
      ⟨front, key, back, woken, split, counted, leads, rest, ready, lower,
        upper⟩
    refine ⟨front, key, back, woken, split, counted, ?_, rest, ready, ?_⟩
    · apply leads.mono
      rintro state ⟨least, most, waits⟩
      exact waits.isAwaiting
    · omega

/-- A task which waits for the keyboard alone is woken by the first key. -/
theorem firstTask_wakes_in_turn :
    ∃ machine created waiting woken,
      Reachable Layout.sample (fun _ => 0#8) machine created ∧
      Step Layout.sample machine (.wakeupAfterEvent eventTypeKbd) waiting ∧
      Run (Step Layout.sample) waiting [.keyboard 1#8 0x1e#8] woken ∧
      Ready machine.currentTask woken := by
  rcases firstTask_running with ⟨machine, created, task, known, _, busy⟩
  have called : Step Layout.sample machine (.wakeupAfterEvent eventTypeKbd)
      (callWakeupAfterEvent Layout.sample machine eventTypeKbd) :=
    ⟨busy, 0, rfl⟩
  rcases wait_effect known.invariant called with
    ⟨front, back, split, waits, _⟩
  have typing : ∃ after, Step Layout.sample
      (callWakeupAfterEvent Layout.sample machine eventTypeKbd)
      (.keyboard 1#8 0x1e#8) after := waits.progress trivial
  rcases typing with ⟨woken, typed⟩
  have ran : Run (Step Layout.sample)
      (callWakeupAfterEvent Layout.sample machine eventTypeKbd)
      [.keyboard 1#8 0x1e#8] woken := .single trivial typed
  have alone : QueueRing machine.mem machine.wakeupEventQueue [] :=
    known.invariant.represents.event
  have wakes :=
    (wakes_in_turn known.reachable alone called ran).2 (by simp [isKeyboard])
  rcases wakes with ⟨front, key, back, state, events, _, leads, _, ready, _⟩
  refine ⟨machine, created, _, state, known.reachable, called, ?_, ready⟩
  cases front with
  | nil =>
      cases events
      exact leads.mono fun _ _ => trivial
  | cons event front =>
      have long := congrArg List.length events
      simp at long

end Waiters

end MagicalOs.Kernel.WakeupDelays
