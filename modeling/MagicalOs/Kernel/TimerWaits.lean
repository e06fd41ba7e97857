import MagicalOs.Kernel.Scheduler

/-!
# Waiting for the timer

`timer_wait_loop_sec` and `timer_wait_loop_usec` add the time to the counter of
milliseconds, and test the counter until it has come that far.  Both the end
and the counter have 32 bits: a wait is as long as asked for, up to one tick,
exactly when neither of them wraps around.

When the loop tests the counter is not known, but it does so at least once
between two interrupts.
-/

namespace MagicalOs.Kernel.TimerWaits

open MagicalOs.Library.ByteMemory
open MagicalOs.Kernel.MachineState
open MagicalOs.Kernel.SchedQueues
open MagicalOs.Kernel.Scheduler

/-! ## The counter -/

/-- The counter after a number of timer interrupts. -/
def counterAfter (old : Word) (interrupts : Nat) : Word :=
  old + BitVec.ofNat 32 interrupts * timerTickMs

/-- A number of timer interrupts, one after the other. -/
def interrupted (iterations : Nat) : Nat → Machine → Option Machine
  | 0, machine => some machine
  | interrupts + 1, machine =>
      (doIrTimer iterations machine).bind (interrupted iterations interrupts)

section Counter

variable {machine after : Machine} {iterations task : Nat}

theorem updateLoop_globalCounter {queue : Machine → Queue}
    {visit : Machine → Nat → Machine}
    (kept : ∀ machine task,
      (visit machine task).globalCounter = machine.globalCounter)
    (ran : updateLoop queue visit iterations machine task = some after) :
    after.globalCounter = machine.globalCounter := by
  induction iterations generalizing machine task with
  | zero => cases ran
  | succ iterations hypothesis =>
      rw [updateLoop] at ran
      split at ran
      · exact (hypothesis ran).trans (kept machine task)
      · cases ran
        exact kept machine task

theorem visitSleeper_globalCounter (machine : Machine) (task : Nat) :
    (visitSleeper machine task).globalCounter = machine.globalCounter := by
  rw [visitSleeper]
  split
  · rfl
  · rfl

theorem switchTo_globalCounter (machine : Machine) (cause : SchedCause)
    (task : Nat) :
    (switchTo machine cause task).globalCounter = machine.globalCounter := by
  rw [switchTo]
  split
  · rfl
  · rfl

theorem dispatch_globalCounter (machine : Machine) (cause : SchedCause) :
    (dispatch machine cause).globalCounter = machine.globalCounter := by
  rw [dispatch]
  split
  · split
    · rfl
    · rfl
  · split
    · split
      · exact switchTo_globalCounter machine cause _
      · rfl
    · exact switchTo_globalCounter machine cause _

theorem schedule_globalCounter (machine : Machine) (cause : SchedCause) :
    (schedule machine cause).globalCounter = machine.globalCounter := by
  rw [schedule]
  split
  · rfl
  · split
    · exact dispatch_globalCounter _ cause
    · exact dispatch_globalCounter machine cause

/-- An interrupt adds a tick, whatever task it wakes up or switches to. -/
theorem doIrTimer_globalCounter
    (ran : doIrTimer iterations machine = some after) :
    after.globalCounter = machine.globalCounter + timerTickMs := by
  rcases Option.map_eq_some_iff.mp ran with ⟨ticked, tick, rfl⟩
  rcases Option.map_eq_some_iff.mp tick with ⟨⟨result, woken⟩, update, rfl⟩
  rw [schedule_globalCounter]
  rw [schedUpdateWakeupq] at update
  split at update
  · cases update
    rfl
  · rcases Option.map_eq_some_iff.mp update with ⟨visited, visits, same⟩
    cases same
    exact updateLoop_globalCounter visitSleeper_globalCounter visits

/-- So the counter of the kernel is the one that the waits see. -/
theorem interrupted_globalCounter {interrupts : Nat}
    (ran : interrupted iterations interrupts machine = some after) :
    after.globalCounter = counterAfter machine.globalCounter interrupts := by
  induction interrupts generalizing machine with
  | zero =>
      cases ran
      rw [counterAfter, BitVec.zero_mul, BitVec.add_zero]
  | succ interrupts hypothesis =>
      rw [interrupted] at ran
      rcases Option.bind_eq_some_iff.mp ran with ⟨next, first, later⟩
      rw [hypothesis later, counterAfter, counterAfter,
        doIrTimer_globalCounter first, BitVec.ofNat_add, BitVec.add_mul,
        BitVec.add_comm (_ * _), ← BitVec.add_assoc, BitVec.one_mul]

end Counter

theorem counterAfter_toNat (old : Word) (interrupts : Nat) :
    (counterAfter old interrupts).toNat =
      (old.toNat + 10 * interrupts) % 2 ^ 32 := by
  rw [counterAfter, BitVec.toNat_add, BitVec.toNat_mul, BitVec.toNat_ofNat,
    timerTickMs, BitVec.toNat_ofNat]
  omega

/-! ## The loops -/

/--
The interrupts that have come before each test of the loop.  None comes
unnoticed: there is at most one before the first test, and between two tests.
-/
structure Schedule where
  seen : Nat → Nat
  first : seen 0 ≤ 1
  mono : ∀ test, seen test ≤ seen (test + 1)
  step : ∀ test, seen (test + 1) ≤ seen test + 1
  forever : ∀ interrupts, ∃ test, interrupts ≤ seen test

/--
`while (global_counter < end)`, from a test on, with a bound on the number of
tests.  The result is the number of interrupts after which the loop is left.
-/
def waitLoop (old finish : Word) (schedule : Schedule) :
    Nat → Nat → Option Nat
  | 0, _ => none
  | tests + 1, test =>
      if counterAfter old (schedule.seen test) < finish then
        waitLoop old finish schedule tests (test + 1)
      else
        some (schedule.seen test)

/-- `timer_wait_loop_sec`, called with a value of `global_counter`. -/
def timerWaitLoopSec (schedule : Schedule) (globalCounter sec : Word)
    (tests : Nat) : Option Nat :=
  let old := globalCounter
  let finish := old + sec * 1000#32 + 1#32
  waitLoop old finish schedule tests 0

/-- `timer_wait_loop_usec`. -/
def timerWaitLoopUsec (schedule : Schedule) (globalCounter usec : Word)
    (tests : Nat) : Option Nat :=
  let old := globalCounter
  let finish := old + usec / 1000#32 + 1#32
  waitLoop old finish schedule tests 0

/-! ## What a wait is meant to do -/

/-- The first interrupt by which the time has passed; one takes 10 ms. -/
def due (microseconds : Nat) : Nat :=
  (microseconds + 9999) / 10000

/-- It is the least number of interrupts which take that long. -/
theorem due_le_iff {microseconds interrupts : Nat} :
    due microseconds ≤ interrupts ↔ microseconds ≤ 10000 * interrupts := by
  rw [due]
  omega

/-- The wait returns when its time has passed, or one interrupt later. -/
def Punctual (microseconds : Nat) (wait : Nat → Option Nat) : Prop :=
  ∃ tests interrupts, wait tests = some interrupts ∧
    due microseconds ≤ interrupts ∧ interrupts ≤ due microseconds + 1

/-- The sum does not wrap around before the counter has passed it. -/
def SecFits (old sec : Word) : Prop :=
  old.toNat + 1000 * sec.toNat + 10 < 2 ^ 32 ∨
    (sec = 0#32 ∧ old = 0xffffffff#32)

def UsecFits (old usec : Word) : Prop :=
  old.toNat + 10 * (usec.toNat / 10000 + 1) < 2 ^ 32 ∨
    (usec = 0#32 ∧ old = 0xffffffff#32)

/-! ## When the loop is left -/

section Loop

variable {old finish : Word} {schedule : Schedule} {tests test interrupts : Nat}

/-- The counter has come to the end, and had not done so before. -/
structure Leaves (old finish : Word) (interrupts : Nat) : Prop where
  reached : ¬counterAfter old interrupts < finish
  before : ∀ earlier < interrupts, counterAfter old earlier < finish

/-- The loop goes on until it finds the end reached. -/
theorem waitLoop_left (tests : Nat)
    (goesOn : ∀ offset < tests,
      counterAfter old (schedule.seen (test + offset)) < finish)
    (ends : ¬counterAfter old (schedule.seen (test + tests)) < finish) :
    waitLoop old finish schedule (tests + 1) test =
      some (schedule.seen (test + tests)) := by
  induction tests generalizing test with
  | zero =>
      rw [Nat.add_zero] at ends
      rw [waitLoop, if_neg ends]
      rfl
  | succ tests hypothesis =>
      have shift : ∀ offset, test + (offset + 1) = test + 1 + offset := by
        intro offset
        omega
      have first : counterAfter old (schedule.seen test) < finish :=
        goesOn 0 (Nat.succ_pos tests)
      rw [shift] at ends ⊢
      rw [waitLoop, if_pos first]
      apply hypothesis
      · intro offset small
        rw [← shift]
        exact goesOn (offset + 1) (Nat.succ_lt_succ small)
      · exact ends

/-- Every schedule comes to the interrupt at which the loop is to be left. -/
theorem waitLoop_of_leaves (leaves : Leaves old finish interrupts)
    (later : schedule.seen 0 ≤ interrupts) :
    ∃ tests, waitLoop old finish schedule tests 0 = some interrupts := by
  rcases Nat.findX (schedule.forever interrupts) with ⟨test, reached, first⟩
  have before : ∀ earlier < test, schedule.seen earlier < interrupts :=
    fun earlier small => Nat.not_le.mp (first earlier small)
  have arrived : schedule.seen (0 + test) = interrupts := by
    rw [Nat.zero_add]
    apply Nat.le_antisymm _ reached
    cases test with
    | zero => exact later
    | succ test => exact (schedule.step test).trans (before test (by omega))
  refine ⟨test + 1, ?_⟩
  rw [← arrived]
  apply waitLoop_left
  · intro offset small
    apply leaves.before
    rw [Nat.zero_add]
    exact before offset small
  · rw [arrived]
    exact leaves.reached

/-- A schedule with one test after each interrupt. -/
def everyInterrupt : Schedule where
  seen := id
  first := Nat.zero_le 1
  mono := Nat.le_succ
  step := fun test => Nat.le_refl (test + 1)
  forever := fun interrupts => ⟨interrupts, Nat.le_refl interrupts⟩

/-- With it, the loop is left at the first such interrupt only. -/
theorem leaves_of_waitLoop
    (before : ∀ earlier < test, counterAfter old earlier < finish)
    (returned : waitLoop old finish everyInterrupt tests test =
      some interrupts) :
    Leaves old finish interrupts := by
  induction tests generalizing test with
  | zero => cases returned
  | succ tests hypothesis =>
      rw [waitLoop] at returned
      split at returned
      · rename_i goesOn
        apply hypothesis _ returned
        intro earlier small
        rcases Nat.lt_succ_iff_lt_or_eq.mp small with smaller | rfl
        · exact before earlier smaller
        · exact goesOn
      · rename_i ends
        cases returned
        exact ⟨ends, before⟩

end Loop

/-! ## When the waits are punctual -/

section Waits

variable {old argument finish : Word} {microseconds : Nat}

/-- The wait is punctual if the loop is left in time, -/
theorem punctual_of_leaves {interrupts : Nat} (schedule : Schedule)
    (leaves : Leaves old finish interrupts) (positive : 0 < interrupts)
    (late : due microseconds ≤ interrupts)
    (early : interrupts ≤ due microseconds + 1) :
    Punctual microseconds
      (fun tests => waitLoop old finish schedule tests 0) := by
  rcases waitLoop_of_leaves leaves (schedule.first.trans positive) with
    ⟨tests, returned⟩
  exact ⟨tests, interrupts, returned, late, early⟩

/-- or at once, if nothing is asked for. -/
theorem punctual_of_zero (schedule : Schedule) :
    Punctual 0 (fun tests => waitLoop old 0#32 schedule tests 0) := by
  refine ⟨1, schedule.seen 0, ?_, Nat.zero_le _, schedule.first⟩
  change waitLoop old 0#32 schedule 1 0 = _
  rw [waitLoop, if_neg BitVec.not_lt_zero]

/-- A wait that is punctual under every schedule leaves its loop in time. -/
theorem leaves_of_punctual
    (punctual : Punctual microseconds
      (fun tests => waitLoop old finish everyInterrupt tests 0)) :
    ∃ interrupts, Leaves old finish interrupts ∧
      due microseconds ≤ interrupts ∧ interrupts ≤ due microseconds + 1 := by
  rcases punctual with ⟨tests, interrupts, returned, late, early⟩
  refine ⟨interrupts, leaves_of_waitLoop ?_ returned, late, early⟩
  intro earlier small
  cases small

theorem leaves_toNat {interrupts : Nat} :
    Leaves old finish interrupts ↔
      finish.toNat ≤ (old.toNat + 10 * interrupts) % 2 ^ 32 ∧
        ∀ earlier < interrupts,
          (old.toNat + 10 * earlier) % 2 ^ 32 < finish.toNat := by
  constructor
  · rintro ⟨reached, before⟩
    constructor
    · rw [← counterAfter_toNat]
      exact Nat.not_lt.mp reached
    · intro earlier small
      rw [← counterAfter_toNat]
      exact before earlier small
  · rintro ⟨reached, before⟩
    constructor
    · rw [BitVec.lt_def, counterAfter_toNat]
      exact Nat.not_lt.mpr reached
    · intro earlier small
      rw [BitVec.lt_def, counterAfter_toNat]
      exact before earlier small

theorem secFinish_toNat :
    (old + argument * 1000#32 + 1#32).toNat =
      (old.toNat + 1000 * argument.toNat + 1) % 2 ^ 32 := by
  rw [BitVec.toNat_add, BitVec.toNat_add, BitVec.toNat_mul,
    BitVec.toNat_ofNat, BitVec.toNat_ofNat]
  omega

theorem usecFinish_toNat :
    (old + argument / 1000#32 + 1#32).toNat =
      (old.toNat + argument.toNat / 1000 + 1) % 2 ^ 32 := by
  have quotient : (argument / 1000#32).toNat = argument.toNat / 1000 := by
    rw [BitVec.toNat_udiv]
    rfl
  rw [BitVec.toNat_add, BitVec.toNat_add, quotient, BitVec.toNat_ofNat]
  omega

theorem eq_last_iff : old = 0xffffffff#32 ↔ old.toNat = 2 ^ 32 - 1 := by
  rw [← BitVec.toNat_inj]
  rfl

theorem eq_zero_iff : argument = 0#32 ↔ argument.toNat = 0 := by
  rw [← BitVec.toNat_inj]
  rfl

theorem due_sec : due (argument.toNat * 1000000) = 100 * argument.toNat := by
  rw [due]
  omega

/-- The counter has passed the largest multiple of ten before the end. -/
theorem secFits_of_leaves {interrupts : Nat}
    (leaves : Leaves old (old + argument * 1000#32 + 1#32) interrupts)
    (late : 100 * argument.toNat ≤ interrupts)
    (early : interrupts ≤ 100 * argument.toNat + 1) :
    SecFits old argument := by
  rw [leaves_toNat, secFinish_toNat] at leaves
  rcases leaves with ⟨reached, before⟩
  have oldSmall := old.isLt
  rw [SecFits, eq_zero_iff, eq_last_iff]
  by_cases inTime : interrupts = 100 * argument.toNat
  · right
    have nothing : interrupts = 0 := by
      by_contra several
      have first := before 0 (by omega)
      omega
    omega
  · left
    have last := before (100 * argument.toNat) (by omega)
    by_contra wraps
    have top := before ((2 ^ 32 - 1 - old.toNat) / 10)
    omega

theorem leaves_sec
    (fits : old.toNat + 1000 * argument.toNat + 10 < 2 ^ 32) :
    Leaves old (old + argument * 1000#32 + 1#32)
      (100 * argument.toNat + 1) := by
  rw [leaves_toNat, secFinish_toNat, Nat.mod_eq_of_lt (by omega)]
  constructor
  · rw [Nat.mod_eq_of_lt (by omega)]
    omega
  · intro earlier small
    rw [Nat.mod_eq_of_lt (by omega)]
    omega

theorem due_usec :
    due argument.toNat ≤ argument.toNat / 10000 + 1 ∧
      argument.toNat / 10000 ≤ due argument.toNat := by
  rw [due]
  omega

theorem leaves_usec
    (fits : old.toNat + 10 * (argument.toNat / 10000 + 1) < 2 ^ 32) :
    Leaves old (old + argument / 1000#32 + 1#32)
      (argument.toNat / 10000 + 1) := by
  rw [leaves_toNat, usecFinish_toNat, Nat.mod_eq_of_lt (by omega)]
  constructor
  · rw [Nat.mod_eq_of_lt (by omega)]
    omega
  · intro earlier small
    rw [Nat.mod_eq_of_lt (by omega)]
    omega

/-- Behind a wrap of the counter, the end is out of reach for long. -/
theorem usecFits_of_leaves {interrupts : Nat}
    (leaves : Leaves old (old + argument / 1000#32 + 1#32) interrupts)
    (late : due argument.toNat ≤ interrupts)
    (early : interrupts ≤ due argument.toNat + 1) :
    UsecFits old argument := by
  rw [leaves_toNat, usecFinish_toNat] at leaves
  rcases leaves with ⟨reached, before⟩
  have oldSmall := old.isLt
  have argumentSmall := argument.isLt
  rw [due] at late early
  rw [UsecFits, eq_zero_iff, eq_last_iff]
  by_cases sumWraps : old.toNat + argument.toNat / 1000 + 1 < 2 ^ 32
  · left
    by_contra counterWraps
    by_cases inTime : interrupts ≤ argument.toNat / 10000
    · omega
    · omega
  · right
    have atOnce : interrupts = 0 := by
      by_contra several
      have first := before 0 (by omega)
      omega
    omega

end Waits

/--
The waits are punctual, whenever the loops test the counter, exactly when the
end is reached before the counter wraps around, or nothing is waited for.
-/
theorem waits_punctual_iff (old argument : Word) :
    ((∀ schedule, Punctual (argument.toNat * 1000000)
        (timerWaitLoopSec schedule old argument)) ↔ SecFits old argument) ∧
      ((∀ schedule, Punctual argument.toNat
        (timerWaitLoopUsec schedule old argument)) ↔
          UsecFits old argument) := by
  constructor
  · constructor
    · intro punctual
      rcases leaves_of_punctual (punctual everyInterrupt) with
        ⟨interrupts, leaves, late, early⟩
      rw [due_sec] at late early
      exact secFits_of_leaves leaves late early
    · rintro (fits | ⟨rfl, rfl⟩) schedule
      · apply punctual_of_leaves schedule (leaves_sec fits) (Nat.succ_pos _)
        · rw [due_sec]
          exact Nat.le_succ _
        · rw [due_sec]
      · exact punctual_of_zero schedule
  · constructor
    · intro punctual
      rcases leaves_of_punctual (punctual everyInterrupt) with
        ⟨interrupts, leaves, late, early⟩
      exact usecFits_of_leaves leaves late early
    · rintro (fits | ⟨rfl, rfl⟩) schedule
      · apply punctual_of_leaves schedule (leaves_usec fits) (Nat.succ_pos _)
        · exact due_usec.1
        · exact Nat.succ_le_succ due_usec.2
      · exact punctual_of_zero schedule

/-- A second is over at once when the end wraps around. -/
theorem timerWaitLoopSec_at_once :
    timerWaitLoopSec everyInterrupt 0xfffffffa#32 1#32 1 = some 0 ∧
      ¬Punctual (1 * 1000000)
        (timerWaitLoopSec everyInterrupt 0xfffffffa#32 1#32) := by
  constructor
  · decide
  · rintro ⟨tests, interrupts, returned, late, -⟩
    cases tests with
    | zero => cases returned
    | succ tests =>
        rw [timerWaitLoopSec, waitLoop, if_neg (by decide)] at returned
        cases returned
        revert late
        decide

end MagicalOs.Kernel.TimerWaits
