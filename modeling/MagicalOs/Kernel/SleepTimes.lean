import MagicalOs.Kernel.StepEffects

/-!
# How long a task sleeps

`sched_update_wakeupq` is meant to subtract one tick from the time of every
sleeper and to wake those whose time is up.  It compares its position with the
head of the queue, which moves on when the head itself is woken, so it then
stops after that one task: the others lose the tick.

As long as no tick is lost in this way, a task which asked for a number of
milliseconds is asleep until the tick which completes them, whatever the other
tasks do.
-/

namespace MagicalOs.Kernel.SleepTimes

open MagicalOs.Library.ByteMemory
open MagicalOs.Kernel.HeapPages
open MagicalOs.Kernel.MachineState
open MagicalOs.Kernel.TaskStructure
open MagicalOs.Kernel.TaskCreation
open MagicalOs.Kernel.SchedQueues
open MagicalOs.Kernel.Scheduler
open MagicalOs.Kernel.TaskQueues
open MagicalOs.Kernel.SchedTraversal
open MagicalOs.Kernel.Dispatch
open MagicalOs.Kernel.KernelRuns
open MagicalOs.Kernel.QueueInvariant
open MagicalOs.Kernel.TaskFields
open MagicalOs.Kernel.StepEffects

/-- The time of the sleeper is longer than a tick. -/
def StaysAsleep (machine : Machine) (task : Nat) : Prop :=
  timerTickMs < wakeupAfterMsec machine.mem task

instance (machine : Machine) (task : Nat) :
    Decidable (StaysAsleep machine task) :=
  inferInstanceAs (Decidable (_ < _))

/--
Exactly the sleepers whose time is up have moved to the end of the run queue;
the others keep their order, and their time is one tick shorter.
-/
structure WakesSleepers (machine after : Machine) (queues : Queues) :
    Prop where
  sleep : QueueRing after.mem after.wakeupQueue
    (queues.sleep.filter fun task => StaysAsleep machine task)
  run : QueueRing after.mem after.runQueue
    (queues.run ++ queues.sleep.filter fun task => ¬StaysAsleep machine task)
  msec : ∀ task ∈ queues.sleep, StaysAsleep machine task →
    wakeupAfterMsec after.mem task =
      wakeupAfterMsec machine.mem task - timerTickMs

/-- The head of the queue stays asleep, or it is the only sleeper. -/
def NoTickLost (machine : Machine) : Prop :=
  machine.wakeupQueue.head ≠ 0 →
    StaysAsleep machine machine.wakeupQueue.head ∨
      next machine.mem machine.wakeupQueue.head = machine.wakeupQueue.head

/-! ## One call -/

section Update

variable {machine after : Machine} {queues : Queues}
  {run sleep event : List Nat} {task iterations head : Nat} {result : Int}

private theorem sleeperDue_eq :
    sleeperDue machine.mem = fun task => !decide (StaysAsleep machine task) :=
  rfl

/-- The condition on the machine, in terms of its sleepers. -/
theorem noTickLost_iff (holds : Represents machine queues) :
    NoTickLost machine ↔ ∀ head rest, queues.sleep = head :: rest →
      sleeperDue machine.mem head = true → rest = [] := by
  have ring := holds.sleep
  cases tasks : queues.sleep with
  | nil =>
      have isEmpty : machine.wakeupQueue.head = 0 :=
        ring.head_eq_zero_iff.mpr tasks
      simp [NoTickLost, isEmpty]
  | cons first others =>
      rw [tasks] at ring
      have head : machine.wakeupQueue.head = first := ring.head
      have nonNull := (ring.pages first (by simp)).ne_null
      have isAlone : next machine.mem first = first ↔ others = [] :=
        ring.ring.next_eq_self_iff
      rw [NoTickLost, head, isAlone]
      constructor
      · rintro lost head rest same isDue
        cases same
        rcases lost nonNull with stays | alone
        · simp [sleeperDue_eq, stays] at isDue
        · exact alone
      · intro alone _
        by_cases stays : StaysAsleep machine first
        · exact .inl stays
        · exact .inr (alone first others rfl (by simp [sleeperDue_eq, stays]))

/-- Then the traversal visits all sleepers. -/
theorem visited_of_noTickLost (holds : Represents machine queues)
    (noneLost : NoTickLost machine) :
    visited (sleeperDue machine.mem) queues.sleep = queues.sleep := by
  have alone := (noTickLost_iff holds).mp noneLost
  cases tasks : queues.sleep with
  | nil => rfl
  | cons first others =>
      rw [visited]
      split
      next isDue => rw [alone first others tasks isDue]
      next => rfl

/-- Then it wakes all those whose time is up, and no others. -/
theorem wake_of_noTickLost (holds : Represents machine queues)
    (noneLost : NoTickLost machine) :
    wake (sleeperDue machine.mem) queues.sleep =
      (queues.sleep.filter (fun task => !sleeperDue machine.mem task),
        queues.sleep.filter (sleeperDue machine.mem)) := by
  apply wake_eq_filter
  intro first others tasks isDue task member
  rw [(noTickLost_iff holds).mp noneLost first others tasks isDue] at member
  cases member

theorem wakesSleepers_of_noTickLost (holds : Represents machine queues)
    (ran : schedUpdateWakeupq iterations machine = some (result, after))
    (noneLost : NoTickLost machine) : WakesSleepers machine after queues := by
  have represents := (schedUpdateWakeupq_requeued holds ran).represents
  have sleepRing := represents.sleep
  have runRing := represents.run
  rw [wokenSleepers, wake_of_noTickLost holds noneLost] at sleepRing runRing
  constructor
  · simpa [sleeperDue_eq] using sleepRing
  · simpa [sleeperDue_eq] using runRing
  · intro task member stays
    have effect := fields_visitSleepers holds (holds.sleep.pages task member)
    rw [visited_of_noTickLost holds noneLost, if_pos member,
      ← schedUpdateWakeupq_eq holds ran, slept, if_pos (show timerTickMs <
        (fields machine.mem task).wakeupAfterMsec from stays)] at effect
    exact congrArg Fields.wakeupAfterMsec effect

/-- A second sleeper behind a woken head is neither woken nor advanced. -/
theorem noTickLost_of_wakesSleepers (holds : Represents machine queues)
    (ran : schedUpdateWakeupq iterations machine = some (result, after))
    (correct : WakesSleepers machine after queues) : NoTickLost machine := by
  refine (noTickLost_iff holds).mpr fun head rest tasks isDue => ?_
  cases others : rest with
  | nil => rfl
  | cons second more =>
      rw [others] at tasks
      have member : second ∈ queues.sleep := by simp [tasks]
      have sleepRing := (schedUpdateWakeupq_requeued holds ran).represents.sleep
      rw [wokenSleepers, tasks, wake, if_pos isDue] at sleepRing
      have same : second :: more = queues.sleep.filter fun task =>
          StaysAsleep machine task := sleepRing.unique correct.sleep
      have stays : StaysAsleep machine second := by
        have kept : second ∈ second :: more := by simp
        rw [same] at kept
        simpa using (List.mem_filter.mp kept).2
      have shorter := correct.msec second member stays
      have different : second ∉ [head] := by
        have nodup := holds.sleep.ring.nodup
        rw [tasks] at nodup
        have fresh := (List.nodup_cons.mp nodup).1
        rw [List.mem_singleton]
        rintro rfl
        simp at fresh
      have effect := fields_visitSleepers holds
        (holds.sleep.pages second member)
      rw [tasks, visited, if_pos isDue, if_neg different,
        ← schedUpdateWakeupq_eq holds ran] at effect
      have unchanged : wakeupAfterMsec after.mem second =
          wakeupAfterMsec machine.mem second :=
        congrArg Fields.wakeupAfterMsec effect
      rw [unchanged, timerTickMs] at shorter
      bv_omega

end Update

/-! ## Runs -/

/-- The number of the timer interrupt which wakes a sleeper up. -/
def wakeTick (msec : Word) : Nat := max 1 ((msec.toNat + 9) / 10)

/--
Steps after a call, in which no tick is lost, with the number of the timer
interrupts among them.
-/
inductive SleepRun (layout : Layout) (start : Machine) :
    Nat → Machine → Prop where
  | called : SleepRun layout start 0 start
  | timer {ticks : Nat} {machine after : Machine}
      (before : SleepRun layout start ticks machine)
      (noneLost : NoTickLost machine)
      (taken : Step layout machine .timer after) :
      SleepRun layout start (ticks + 1) after
  | other {ticks : Nat} {machine after : Machine} {event : Event}
      (before : SleepRun layout start ticks machine)
      (different : event ≠ .timer)
      (taken : Step layout machine event after) :
      SleepRun layout start ticks after

/-- The task is on the wake-up queue, and not on the run queue. -/
def Asleep (machine : Machine) (task : Nat) : Prop :=
  OnQueue machine.mem machine.wakeupQueue task ∧
    ¬OnQueue machine.mem machine.runQueue task

/-- A sleeper which has asked for some time and slept for some ticks. -/
structure Sleeping (machine : Machine) (created : List Nat) (queues : Queues)
    (task : Nat) (msec : Word) (ticks : Nat) : Prop where
  invariant : Invariant machine created queues
  member : task ∈ queues.sleep
  remaining :
    (wakeupAfterMsec machine.mem task).toNat + 10 * ticks = msec.toNat

section Runs

variable {layout : Layout} {mem : Memory} {machine after asleep : Machine}
  {queues : Queues} {created : List Nat} {event : Event} {msec : Word}
  {task ticks : Nat}

namespace Sleeping

variable (sleeping : Sleeping machine created queues task msec ticks)
include sleeping

theorem page : IsHeapPage task :=
  sleeping.invariant.represents.sleep.pages task sleeping.member

theorem notReady : task ∉ queues.run := by
  intro ready
  exact List.disjoint_of_nodup_append sleeping.invariant.represents.nodup
    ready (List.mem_append_left _ sleeping.member)

/-- The sleeper is not the task which calls the next system call. -/
theorem notCurrent : task ≠ machine.currentTask := by
  rintro rfl
  rcases sleeping.invariant.current with idle | ready
  · exact sleeping.page.ne_null idle
  · exact sleeping.notReady ready

theorem stillAsleep : Asleep machine task := by
  have represents := sleeping.invariant.represents
  exact ⟨represents.sleep.onQueue_iff.mpr sleeping.member,
    fun ready => sleeping.notReady (represents.run.onQueue_iff.mp ready)⟩

/-- Steps which are no timer interrupts do not change the remaining time. -/
theorem other (different : event ≠ .timer)
    (taken : Step layout machine event after) :
    ∃ created queues, Sleeping after created queues task msec ticks := by
  have invariant := sleeping.invariant
  have page := sleeping.page
  have member : task ∈ queues.all := by
    simp [Queues.all, sleeping.member]
  have unchanged {later : List Nat} {lists : Queues}
      (holds : Invariant after later lists) (inSleep : task ∈ lists.sleep)
      (same : (fields after.mem task).wakeupAfterMsec =
        (fields machine.mem task).wakeupAfterMsec) :
      ∃ created queues, Sleeping after created queues task msec ticks := by
    refine ⟨later, lists, holds, inSleep, ?_⟩
    rw [← sleeping.remaining]
    exact congrArg (fun time => time.toNat + 10 * ticks) same
  cases event with
  | taskInit file =>
      rcases taskInit_effect invariant taken with
        ⟨holds, _, _, _, _, effect⟩
      exact unchanged holds sleeping.member
        (congrArg Fields.wakeupAfterMsec (effect task (.inl member)))
  | timer => exact absurd rfl different
  | keyboard status data =>
      rcases keyboard_effect invariant taken with ⟨holds, _, effect⟩
      apply unchanged holds sleeping.member
      rw [effect task page]
      split
      next =>
        rw [notified]
        split
        next => rfl
        next => rfl
      next => rfl
  | wakeupAfterMsec time =>
      rcases queues with ⟨run, sleep, waiting⟩
      rcases sleep_effect invariant taken with
        ⟨front, back, _, holds, _, _, effect⟩
      apply unchanged holds (List.mem_append_left _ sleeping.member)
      rw [effect task page]
      exact if_neg sleeping.notCurrent
  | wakeupAfterEvent eventType =>
      rcases queues with ⟨run, sleep, waiting⟩
      rcases wait_effect invariant taken with
        ⟨front, back, _, holds, _, _, effect⟩
      apply unchanged holds sleeping.member
      rw [effect task page]
      rfl

/-- A tick which is not the last one of a sleeper. -/
theorem timer (noneLost : NoTickLost machine)
    (taken : Step layout machine .timer after)
    (long : 10 * (ticks + 1) < msec.toNat) :
    ∃ created queues, Sleeping after created queues task msec (ticks + 1) := by
  have represents := sleeping.invariant.represents
  have page := sleeping.page
  have remaining := sleeping.remaining
  have stays : StaysAsleep machine task := by
    rw [StaysAsleep, timerTickMs, BitVec.lt_def]
    change 10 < _
    omega
  rcases timer_effect sleeping.invariant taken with
    ⟨entering, _, _, _, _, _, before, holds, _, effect⟩
  have ticked := before task page
  rw [visited_of_noTickLost represents noneLost, if_pos sleeping.member,
    slept, if_pos (show timerTickMs <
      (fields machine.mem task).wakeupAfterMsec from stays)] at ticked
  have shorter : wakeupAfterMsec after.mem task =
      wakeupAfterMsec machine.mem task - timerTickMs := by
    have time := congrArg Fields.wakeupAfterMsec (effect task page)
    exact time.trans (congrArg Fields.wakeupAfterMsec ticked)
  refine ⟨_, _, holds, ?_, ?_⟩
  · rw [wokenSleepers, wake_of_noTickLost represents noneLost]
    simpa [sleeperDue_eq, stays] using sleeping.member
  · rw [shorter, timerTickMs, BitVec.toNat_sub_of_le]
    · change _ - 10 + _ = _
      omega
    · rw [BitVec.le_def]
      change 10 ≤ _
      omega

/-- The last tick of a sleeper makes it ready. -/
theorem wakes (noneLost : NoTickLost machine)
    (taken : Step layout machine .timer after)
    (last : msec.toNat ≤ 10 * (ticks + 1)) :
    OnQueue after.mem after.runQueue task := by
  have represents := sleeping.invariant.represents
  have remaining := sleeping.remaining
  have ends : ¬StaysAsleep machine task := by
    rw [StaysAsleep, timerTickMs, BitVec.lt_def]
    change ¬10 < _
    omega
  rcases timer_effect sleeping.invariant taken with
    ⟨entering, _, _, _, _, _, _, holds, _⟩
  apply holds.represents.run.onQueue_iff.mpr
  rw [wokenSleepers, wake_of_noTickLost represents noneLost]
  apply List.mem_append_right _
  simpa [sleeperDue_eq, ends] using sleeping.member

end Sleeping

/-- The call itself puts the caller to sleep. -/
theorem sleeping_of_call (holds : Invariant machine created queues)
    (taken : Step layout machine (.wakeupAfterMsec msec) asleep) :
    ∃ created queues,
      Sleeping asleep created queues machine.currentTask msec 0 := by
  rcases queues with ⟨run, sleep, waiting⟩
  rcases sleep_effect holds taken with
    ⟨front, back, rfl, invariant, _, _, effect⟩
  have page := holds.represents.run.pages machine.currentTask (by simp)
  refine ⟨_, _, invariant, by simp, ?_⟩
  have time := congrArg Fields.wakeupAfterMsec (effect _ page)
  have value : wakeupAfterMsec asleep.mem machine.currentTask = msec :=
    time.trans (if_pos rfl)
  rw [value]
  omega

/-- Until its last tick a sleeper stays asleep, in every such run. -/
theorem SleepRun.sleeping
    (start : ∃ created queues, Sleeping asleep created queues task msec 0)
    (run : SleepRun layout asleep ticks machine)
    (early : ticks < wakeTick msec) :
    ∃ created queues, Sleeping machine created queues task msec ticks := by
  induction run with
  | called => exact start
  | timer before noneLost taken induction =>
      rcases induction (by omega) with ⟨created, queues, sleeping⟩
      apply sleeping.timer noneLost taken
      rw [wakeTick] at early
      omega
  | other before different taken induction =>
      rcases induction early with ⟨created, queues, sleeping⟩
      exact sleeping.other different taken

/--
`sched_update_wakeupq` terminates and treats all sleepers right exactly when no
tick is lost.  After a call of `wakeup_after_msec`, as long as no tick is lost,
the caller is asleep until the timer interrupt which completes its time, and
that interrupt makes it ready.
-/
theorem wakesSleepers_iff (holds : Represents machine queues) :
    (∃ iterations result after,
      schedUpdateWakeupq iterations machine = some (result, after)) ∧
    (∀ iterations result after,
      schedUpdateWakeupq iterations machine = some (result, after) →
      (WakesSleepers machine after queues ↔ NoTickLost machine)) ∧
    ∀ layout mem created msec asleep,
      Reachable layout mem machine created →
      Step layout machine (.wakeupAfterMsec msec) asleep →
      ∀ ticks later, SleepRun layout asleep ticks later →
        (ticks < wakeTick msec → Asleep later machine.currentTask) ∧
        (ticks + 1 = wakeTick msec → NoTickLost later →
          ∀ after, Step layout later .timer after →
            OnQueue after.mem after.runQueue machine.currentTask) := by
  refine ⟨?_, ?_, ?_⟩
  · rcases (schedUpdateWakeupq_spec holds (Nat.le_refl _)).1 with
      ⟨result, ran⟩
    exact ⟨_, result, _, ran⟩
  · intro iterations result after ran
    constructor
    · exact noTickLost_of_wakesSleepers holds ran
    · exact wakesSleepers_of_noTickLost holds ran
  · intro layout mem created msec asleep reachable called ticks later run
    rcases run_invariant reachable with ⟨_, invariant⟩
    have start := sleeping_of_call invariant called
    constructor
    · intro early
      rcases run.sleeping start early with ⟨_, _, sleeping⟩
      exact sleeping.stillAsleep
    · intro last noneLost after taken
      rcases run.sleeping start (by omega) with ⟨_, _, sleeping⟩
      apply sleeping.wakes noneLost taken
      rw [wakeTick] at last
      omega

end Runs

/-- A single task which asks for five milliseconds is ready after one tick. -/
theorem oneSleeper_wakes :
    ∃ machine created asleep after,
      Reachable Layout.sample (fun _ => 0#8) machine created ∧
      Step Layout.sample machine (.wakeupAfterMsec 5#32) asleep ∧
      Step Layout.sample asleep .timer after ∧
      OnQueue after.mem after.runQueue machine.currentTask := by
  rcases (Known.boot Layout.sample fun _ => 0#8).creates (by simp)
    { name := 0x12000, dataBaseAddr := 0x12020 } with
    ⟨created, task, _, creation, page, idle⟩
  rcases creation.starts idle with ⟨started, _, running, current⟩
  have busy : started.currentTask ≠ 0 := current ▸ page.ne_null
  have call : Step Layout.sample started (.wakeupAfterMsec 5#32)
      (callWakeupAfterMsec Layout.sample started 5#32) := ⟨busy, 0, rfl⟩
  rcases sleep_effect running.invariant call with
    ⟨front, back, split, slept, _⟩
  have noneLost : NoTickLost
      (callWakeupAfterMsec Layout.sample started 5#32) := by
    apply (noTickLost_iff slept.represents).mpr
    rintro head rest tasks _
    cases tasks
    rfl
  have ticking : ∃ after, Step Layout.sample
      (callWakeupAfterMsec Layout.sample started 5#32) .timer after :=
    slept.progress trivial
  rcases ticking with ⟨after, ticked⟩
  have runs := (wakesSleepers_iff running.invariant.represents).2.2
    Layout.sample (fun _ => 0#8) _ 5#32 _ running.reachable call 0 _ .called
  exact ⟨started, _, _, after, running.reachable, call, ticked,
    runs.2 (by decide) noneLost after ticked⟩

/-! ## Two sleepers -/

/-- The time of every task structure of this memory is up. -/
def oneSleeper : Machine :=
  schedWakeupqEnq (staticMachine fun _ => 0#8) (heapPage 0)

def twoSleepers : Machine := schedWakeupqEnq oneSleeper (heapPage 1)

theorem oneSleeper_represents :
    Represents oneSleeper ⟨[], [heapPage 0], []⟩ := by
  have page : IsHeapPage (heapPage 0) := ⟨0, by decide, rfl⟩
  have queue : QueueRing (fun _ => 0#8) ⟨0, 0#32⟩ [] := .empty _
  have ring := queueEnq_ring queue page List.not_mem_nil
  exact ⟨.empty _, ring, .empty _, by simp [Queues.all]⟩

theorem twoSleepers_represents :
    Represents twoSleepers ⟨[], [heapPage 0, heapPage 1], []⟩ := by
  have page : IsHeapPage (heapPage 1) := ⟨1, by decide, rfl⟩
  have ring := queueEnq_ring oneSleeper_represents.sleep page
    (by simp [heapPage_inj])
  exact ⟨.empty _, ring, .empty _, by simp [Queues.all, heapPage_inj]⟩

/-- The time of the first one is up. -/
private theorem twoSleepers_due :
    sleeperDue twoSleepers.mem (heapPage 0) = true := by
  have firstPage : IsHeapPage (heapPage 0) := ⟨0, by decide, rfl⟩
  have secondPage : IsHeapPage (heapPage 1) := ⟨1, by decide, rfl⟩
  have queue : QueueRing (fun _ => 0#8) ⟨0, 0#32⟩ [] := .empty _
  have afterFirst : fields oneSleeper.mem (heapPage 0) =
      fields (fun _ => 0#8) (heapPage 0) :=
    fields_queueEnq queue firstPage List.not_mem_nil firstPage
  have afterSecond : fields twoSleepers.mem (heapPage 0) =
      fields oneSleeper.mem (heapPage 0) :=
    fields_queueEnq oneSleeper_represents.sleep secondPage
      (by simp [heapPage_inj]) firstPage
  have time : wakeupAfterMsec twoSleepers.mem (heapPage 0) = 0#32 :=
    congrArg Fields.wakeupAfterMsec (afterSecond.trans afterFirst)
  simp [sleeperDue, time]

/-- Of two sleepers whose time is up, one tick wakes the first one only. -/
theorem twoSleepers_not_wakesSleepers :
    Represents twoSleepers ⟨[], [heapPage 0, heapPage 1], []⟩ ∧
      ∃ iterations result after,
        schedUpdateWakeupq iterations twoSleepers = some (result, after) ∧
        ¬WakesSleepers twoSleepers after
          ⟨[], [heapPage 0, heapPage 1], []⟩ := by
  rcases (schedUpdateWakeupq_spec twoSleepers_represents
    (Nat.le_refl _)).1 with ⟨result, ran⟩
  refine ⟨twoSleepers_represents, _, result, _, ran, fun correct => ?_⟩
  have noneLost :=
    noTickLost_of_wakesSleepers twoSleepers_represents ran correct
  have alone := (noTickLost_iff twoSleepers_represents).mp noneLost
    (heapPage 0) [heapPage 1] rfl twoSleepers_due
  cases alone

end MagicalOs.Kernel.SleepTimes
