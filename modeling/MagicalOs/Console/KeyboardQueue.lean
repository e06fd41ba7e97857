import MagicalOs.Kernel.Scheduler
import MagicalOs.Library.CircularBuffer

/-!
# Reading the keyboard

`get_keydata` takes scan codes out of the key code queue while keyboard
interrupts put new ones into it.  The two critical sections of `get_keydata`
and `dequeue` are nested, and both report through the shared `error_status`.

The module follows calls of `get_keydata` statement by statement, with
`kern_lock` split into its two accesses to the interrupt flag.  Keyboard
interrupts strike between any two statements while the flag is set; their
handler runs behind an interrupt gate, so it is one step.  Several callers take
turns: a call gives the processor away where it sleeps.

What an observer sees of a run is compared with a queue of at most 256 scan
codes.
-/

namespace MagicalOs.Console.KeyboardQueue

open MagicalOs.Library.ByteMemory
open MagicalOs.Library.CircularBuffer
open MagicalOs.Console.KeyboardBuffer
open MagicalOs.Kernel.MachineState
open MagicalOs.Kernel.Scheduler

/-! ## The queue as a circular buffer -/

def asBuffer (queue : KeycodeQueue) : Buffer 8 Byte where
  cells := queue.buf
  first := queue.start
  free := queue.end
  full := queue.isFull ≠ 0#8

/-- `QUEUE_BUF_SIZE`. -/
def queueBufSize : Nat := 256

section Queue

variable {queue : KeycodeQueue} {pending rest : List Byte} {data : Byte}

theorem full_iff (holds : Holds (asBuffer queue) pending) :
    queue.isFull ≠ 0#8 ↔ ¬pending.length < queueBufSize := by
  have full := holds.full
  have bounded : pending.length ≤ 256 := holds.bounded
  rw [asBuffer, decide_eq_true_eq] at full
  rw [full, queueBufSize]
  change pending.length = 256 ↔ _
  omega

/-- `enqueue` puts a scan code into the queue unless it is full. -/
theorem holds_enqueue (holds : Holds (asBuffer queue) pending) (data : Byte) :
    Holds (asBuffer (enqueue queue data))
      (if pending.length < queueBufSize then pending ++ [data]
        else pending) := by
  have isFull := full_iff holds
  by_cases room : pending.length < queueBufSize
  · have notFull : queue.isFull = 0#8 := by
      by_contra full
      exact isFull.mp full room
    have pushed := holds.push (by simp [asBuffer, notFull]) data
    rw [if_pos room]
    suffices asBuffer (enqueue queue data) = push (asBuffer queue) data by
      rw [this]
      exact pushed
    rw [enqueue, if_neg (not_not.mpr notFull)]
    by_cases wraps : queue.start = queue.end + 1#8
    · simp [asBuffer, push, ← wraps]
    · simp [asBuffer, push, notFull, wraps]
  · rw [if_neg room, enqueue_full (isFull.mpr room)]
    exact holds

/-- The test of `dequeue` finds out whether the queue is empty. -/
theorem empty_iff (holds : Holds (asBuffer queue) pending) :
    queue.isFull = 0#8 ∧ queue.start = queue.end ↔ pending = [] := by
  rw [holds.isEmpty_iff]
  simp [asBuffer]

/-- Clearing `is_full` completes what advancing `start` has begun. -/
theorem holds_advance (holds : Holds (asBuffer queue) (data :: rest)) :
    Holds (asBuffer
      { queue with start := queue.start + 1#8, isFull := 0#8 }) rest :=
  holds.pop

end Queue

/-! ## Calls -/

/-- The statements of `get_keydata`, `dequeue` and the functions on locks. -/
inductive Point where
  | idle
  | lock
  | lockCli
  | dequeueLock
  | dequeueLockCli
  | dequeueTest
  | dequeueFail
  | dequeueSucceed
  | dequeueLoad
  | dequeueAdvance
  | dequeueClear
  | dequeueUnlock
  | check
  | unlock
  | test
  | asleep
  | returning
  deriving DecidableEq

/--
A caller: its interrupt flag, and the variables of its call of `get_keydata`
and of the call of `dequeue` in it.
-/
structure Call where
  point : Point
  interruptFlag : Bool
  dequeuing : Byte
  ifBit : Byte
  data : Byte
  dequeueIfBit : Byte
  dequeueData : Byte

/-- `kern_lock` saves the interrupt flag, -/
def savedFlag (interruptFlag : Bool) : Byte :=
  if interruptFlag then 1#8 else 0#8

/-- then clears it if it was set. -/
def cliIf (ifBit : Byte) (interruptFlag : Bool) : Bool :=
  if ifBit ≠ 0#8 then false else interruptFlag

/-- `kern_unlock`. -/
def stiIf (ifBit : Byte) (interruptFlag : Bool) : Bool :=
  if ifBit ≠ 0#8 then true else interruptFlag

/-- Execute the next statement of a call. -/
def advance (queue : KeycodeQueue) (call : Call) : KeycodeQueue × Call :=
  match call.point with
  | .lock =>
      (queue,
        { call with
          ifBit := savedFlag call.interruptFlag
          point := .lockCli })
  | .lockCli =>
      (queue,
        { call with
          interruptFlag := cliIf call.ifBit call.interruptFlag
          point := .dequeueLock })
  | .dequeueLock =>
      (queue,
        { call with
          dequeueData := 0#8
          dequeueIfBit := savedFlag call.interruptFlag
          point := .dequeueLockCli })
  | .dequeueLockCli =>
      (queue,
        { call with
          interruptFlag := cliIf call.dequeueIfBit call.interruptFlag
          point := .dequeueTest })
  | .dequeueTest =>
      (queue,
        { call with
          point :=
            if queue.isFull = 0#8 ∧ queue.start = queue.end then .dequeueFail
            else .dequeueSucceed })
  | .dequeueFail =>
      ({ queue with errorStatus := 1#8 }, { call with point := .dequeueUnlock })
  | .dequeueSucceed =>
      ({ queue with errorStatus := 0#8 }, { call with point := .dequeueLoad })
  | .dequeueLoad =>
      (queue,
        { call with
          dequeueData := queue.buf queue.start
          point := .dequeueAdvance })
  | .dequeueAdvance =>
      ({ queue with start := queue.start + 1#8 },
        { call with point := .dequeueClear })
  | .dequeueClear =>
      ({ queue with isFull := 0#8 }, { call with point := .dequeueUnlock })
  | .dequeueUnlock =>
      (queue,
        { call with
          interruptFlag := stiIf call.dequeueIfBit call.interruptFlag
          data := call.dequeueData
          point := .check })
  | .check =>
      (queue,
        { call with
          dequeuing := if queue.errorStatus = 0#8 then 0#8 else call.dequeuing
          point := .unlock })
  | .unlock =>
      (queue,
        { call with
          interruptFlag := stiIf call.ifBit call.interruptFlag
          point := .test })
  | .test =>
      (queue,
        { call with
          point := if call.dequeuing ≠ 0#8 then .asleep else .returning })
  | .idle => (queue, call)
  | .asleep => (queue, call)
  | .returning => (queue, call)

/-- The points at which a call executes its own statements. -/
def Point.Busy (point : Point) : Prop :=
  point ≠ .idle ∧ point ≠ .asleep ∧ point ≠ .returning

/-- The queue, all callers, and the caller which has the processor. -/
structure System where
  queue : KeycodeQueue
  calls : Nat → Call
  running : Nat

/-- The call of the running caller. -/
def System.call (system : System) : Call := system.calls system.running

/-- Replace the call of the running caller. -/
def System.setCall (system : System) (call : Call) : System :=
  { system with
    calls := fun caller =>
      if caller = system.running then call else system.calls caller }

/-! ## Steps -/

/-- What an observer sees of a step. -/
inductive Label where
  | silent
  | arrives (data : Byte)
  | stores (caller : Nat)
  | takes (data : Byte)
  | returns (data : Byte)

/-- The part of `do_ir_keyboard` which concerns the queue. -/
def receive (queue : KeycodeQueue) (status data : Byte) : KeycodeQueue :=
  if status &&& 0x01#8 ≠ 0#8 then enqueue queue data else queue

theorem receiveKeycode_queue (machine : Machine) (status data : Byte) :
    (receiveKeycode machine status data).keycodeQueue =
      receive machine.keycodeQueue status data := by
  rw [receiveKeycode, receive]
  split
  next => rfl
  next => rfl

def receiveLabel (status data : Byte) : Label :=
  if status &&& 0x01#8 ≠ 0#8 then .arrives data else .silent

/-- What is seen of a statement of `get_keydata`. -/
def advanceLabel (caller : Nat) (call : Call) : Label :=
  match call.point with
  | .dequeueFail => .stores caller
  | .dequeueSucceed => .stores caller
  | .dequeueAdvance => .takes call.dequeueData
  | _ => .silent

inductive Step : System → Label → System → Prop where
  | keyboard (system : System) (status data : Byte)
      (enabled : system.call.interruptFlag = true) :
      Step system (receiveLabel status data)
        { system with queue := receive system.queue status data }
  | flags (system : System) (interruptFlag : Bool)
      (idle : system.call.point = .idle) :
      Step system .silent
        (system.setCall { system.call with interruptFlag := interruptFlag })
  | calls (system : System) (idle : system.call.point = .idle) :
      Step system .silent
        (system.setCall { system.call with dequeuing := 1#8, point := .lock })
  | advances (system : System) (busy : system.call.point.Busy) :
      Step system (advanceLabel system.running system.call)
        { system.setCall (advance system.queue system.call).2 with
          queue := (advance system.queue system.call).1 }
  | wakes (system : System) (asleep : system.call.point = .asleep) :
      Step system .silent (system.setCall { system.call with point := .lock })
  | returns (system : System) (done : system.call.point = .returning) :
      Step system (.returns system.call.data)
        (system.setCall { system.call with point := .idle })
  | switches (system : System) (other : Nat)
      (resting : system.call.point = .idle ∨ system.call.point = .asleep) :
      Step system .silent { system with running := other }

/-- After `con_init`, no call is in progress. -/
def Initial (system : System) : Prop :=
  (∃ queue, system.queue = conInit queue) ∧
    ∀ caller, (system.calls caller).point = .idle

/-! ## Observations -/

/--
What the steps of a run amount to: the scan codes which arrived while fewer
than 256 were pending, those which are still pending, those which `dequeue` has
taken for a call in progress, those which have been returned, and who stored
`error_status` last, `none` standing for the producer.
-/
structure Observed where
  accepted : List Byte
  pending : List Byte
  held : List Byte
  returned : List Byte
  storedBy : Option Nat

def Observed.start : Observed := ⟨[], [], [], [], none⟩

def Observed.observe (observed : Observed) : Label → Observed
  | .silent => observed
  | .arrives data =>
      if observed.pending.length < queueBufSize then
        { observed with
          accepted := observed.accepted ++ [data]
          pending := observed.pending ++ [data]
          storedBy := none }
      else
        { observed with storedBy := none }
  | .stores caller => { observed with storedBy := some caller }
  | .takes data =>
      { observed with pending := observed.pending.tail, held := [data] }
  | .returns data =>
      { observed with held := [], returned := observed.returned ++ [data] }

/-- The states which some interleaving leads to, with what has been observed. -/
inductive Run : System → Observed → Prop where
  | start {system : System} (initial : Initial system) :
      Run system .start
  | step {system after : System} {observed : Observed} {label : Label}
      (before : Run system observed) (taken : Step system label after) :
      Run after (observed.observe label)

/-! ## The invariant -/

/-- The queue, with the removal of a scan code completed. -/
def settled (queue : KeycodeQueue) (point : Point) : KeycodeQueue :=
  if point = .dequeueClear then { queue with isFull := 0#8 } else queue

/-- Interrupts are off, and `dequeue` will not turn them on. -/
def Locked (call : Call) : Prop :=
  call.interruptFlag = false ∧ call.dequeueIfBit = 0#8

/-- What holds at each statement of a call. -/
def PointCorrect (caller : Nat) (queue : KeycodeQueue) (call : Call)
    (observed : Observed) : Prop :=
  match call.point with
  | .idle => observed.held = []
  | .lock => observed.held = [] ∧ call.dequeuing ≠ 0#8
  | .lockCli =>
      observed.held = [] ∧ call.dequeuing ≠ 0#8 ∧
        (call.ifBit = 0#8 → call.interruptFlag = false)
  | .dequeueLock =>
      observed.held = [] ∧ call.dequeuing ≠ 0#8 ∧ call.interruptFlag = false
  | .dequeueLockCli =>
      observed.held = [] ∧ call.dequeuing ≠ 0#8 ∧ Locked call
  | .dequeueTest =>
      observed.held = [] ∧ call.dequeuing ≠ 0#8 ∧ Locked call
  | .dequeueFail =>
      observed.held = [] ∧ call.dequeuing ≠ 0#8 ∧ Locked call ∧
        observed.pending = []
  | .dequeueSucceed =>
      observed.held = [] ∧ call.dequeuing ≠ 0#8 ∧ Locked call ∧
        observed.pending ≠ []
  | .dequeueLoad =>
      observed.held = [] ∧ call.dequeuing ≠ 0#8 ∧ Locked call ∧
        observed.pending ≠ [] ∧ observed.storedBy = some caller ∧
        queue.errorStatus = 0#8
  | .dequeueAdvance =>
      observed.held = [] ∧ call.dequeuing ≠ 0#8 ∧ Locked call ∧
        observed.pending.head? = some call.dequeueData ∧
        observed.storedBy = some caller ∧ queue.errorStatus = 0#8
  | .dequeueClear =>
      observed.held = [call.dequeueData] ∧ call.dequeuing ≠ 0#8 ∧
        Locked call ∧ observed.storedBy = some caller ∧
        queue.errorStatus = 0#8
  | .dequeueUnlock =>
      observed.held =
          (if queue.errorStatus = 0#8 then [call.dequeueData] else []) ∧
        call.dequeuing ≠ 0#8 ∧ Locked call ∧ observed.storedBy = some caller
  | .check =>
      observed.held = (if queue.errorStatus = 0#8 then [call.data] else []) ∧
        call.dequeuing ≠ 0#8 ∧ call.interruptFlag = false ∧
        observed.storedBy = some caller
  | .unlock =>
      observed.held = (if call.dequeuing = 0#8 then [call.data] else []) ∧
        call.interruptFlag = false
  | .test =>
      observed.held = (if call.dequeuing = 0#8 then [call.data] else [])
  | .asleep => observed.held = []
  | .returning => observed.held = [call.data]

/-- The queue holds the pending scan codes, and none has been lost. -/
structure Conserved (queue : KeycodeQueue) (point : Point)
    (observed : Observed) : Prop where
  holds : Holds (asBuffer (settled queue point)) observed.pending
  accepted : observed.accepted =
    observed.returned ++ (observed.held ++ observed.pending)

structure Correct (system : System) (observed : Observed) : Prop where
  conserved : Conserved system.queue system.call.point observed
  point : PointCorrect system.running system.queue system.call observed
  others : ∀ caller, caller ≠ system.running →
    (system.calls caller).point = .idle ∨
      (system.calls caller).point = .asleep
  asleep : ∀ caller, (system.calls caller).point = .asleep →
    (system.calls caller).dequeuing ≠ 0#8

section Statements

variable {caller : Nat} {queue : KeycodeQueue} {call : Call}
  {observed : Observed}

/-- A statement of `get_keydata` or `dequeue` keeps what holds of the call. -/
theorem pointCorrect_advance
    (correct : PointCorrect caller queue call observed)
    (conserved : Conserved queue call.point observed)
    (busy : call.point.Busy) :
    PointCorrect caller (advance queue call).1 (advance queue call).2
      (observed.observe (advanceLabel caller call)) := by
  have holds := conserved.holds
  rcases call with
    ⟨point, flag, dequeuing, ifBit, data, dequeueIfBit, dequeueData⟩
  cases point with
  | idle => exact absurd rfl busy.1
  | asleep => exact absurd rfl busy.2.1
  | returning => exact absurd rfl busy.2.2
  | lock =>
      refine ⟨correct.1, correct.2, ?_⟩
      cases flag with
      | false => exact fun _ => rfl
      | true => exact fun impossible => by cases impossible
  | lockCli =>
      refine ⟨correct.1, correct.2.1, ?_⟩
      by_cases saved : ifBit = 0#8
      · exact (if_neg (not_not.mpr saved)).trans (correct.2.2 saved)
      · exact if_pos saved
  | dequeueLock =>
      rcases correct with ⟨held, dequeuing, off⟩
      refine ⟨held, dequeuing, off, ?_⟩
      change savedFlag flag = 0#8
      rw [show flag = false from off]
      rfl
  | dequeueLockCli =>
      rcases correct with ⟨held, dequeuing, off, saved⟩
      exact ⟨held, dequeuing, (if_neg (not_not.mpr saved)).trans off, saved⟩
  | dequeueTest =>
      rcases correct with ⟨held, dequeuing, locked⟩
      have holds : Holds (asBuffer queue) observed.pending := conserved.holds
      by_cases none : queue.isFull = 0#8 ∧ queue.start = queue.end
      · simp only [advance, if_pos none]
        exact ⟨held, dequeuing, locked, (empty_iff holds).mp none⟩
      · simp only [advance, if_neg none]
        exact ⟨held, dequeuing, locked, mt (empty_iff holds).mpr none⟩
  | dequeueFail =>
      rcases correct with ⟨held, dequeuing, locked, _⟩
      refine ⟨held.trans ?_, dequeuing, locked, rfl⟩
      change [] = if (1#8 : Byte) = 0#8 then [dequeueData] else []
      rfl
  | dequeueSucceed =>
      rcases correct with ⟨held, dequeuing, locked, nonEmpty⟩
      exact ⟨held, dequeuing, locked, nonEmpty, rfl, rfl⟩
  | dequeueLoad =>
      rcases correct with
        ⟨held, dequeuing, locked, nonEmpty, stored, status⟩
      have holds : Holds (asBuffer queue) observed.pending := conserved.holds
      refine ⟨held, dequeuing, locked, ?_, stored, status⟩
      change observed.pending.head? = some (queue.buf queue.start)
      cases items : observed.pending with
      | nil => exact absurd items nonEmpty
      | cons first rest =>
          rw [items] at holds
          exact congrArg some holds.first_cell.symm
  | dequeueAdvance =>
      rcases correct with ⟨_, dequeuing, locked, _, stored, status⟩
      exact ⟨rfl, dequeuing, locked, stored, status⟩
  | dequeueClear =>
      rcases correct with ⟨held, dequeuing, locked, stored, status⟩
      exact ⟨held.trans (if_pos status).symm, dequeuing, locked, stored⟩
  | dequeueUnlock =>
      rcases correct with ⟨held, dequeuing, ⟨off, saved⟩, stored⟩
      exact ⟨held, dequeuing, (if_neg (not_not.mpr saved)).trans off, stored⟩
  | check =>
      rcases correct with ⟨held, dequeuing, off, _⟩
      refine ⟨held.trans ?_, off⟩
      change _ = if (if queue.errorStatus = 0#8 then 0#8 else _) = 0#8
        then [data] else []
      by_cases status : queue.errorStatus = 0#8
      · rw [if_pos status, if_pos status, if_pos rfl]
      · rw [if_neg status, if_neg status, if_neg dequeuing]
  | unlock => exact correct.1
  | test =>
      have held : observed.held = if dequeuing = 0#8 then [data] else [] :=
        correct
      by_cases again : dequeuing = 0#8
      · rw [if_pos again] at held
        simp only [advance, if_neg (not_not.mpr again)]
        exact held
      · rw [if_neg again] at held
        simp only [advance, if_pos again]
        exact held

/-- A statement takes at most one scan code from the queue to the call. -/
theorem conserved_advance
    (correct : PointCorrect caller queue call observed)
    (conserved : Conserved queue call.point observed)
    (busy : call.point.Busy) :
    Conserved (advance queue call).1 (advance queue call).2.point
      (observed.observe (advanceLabel caller call)) := by
  rcases conserved with ⟨holds, accepted⟩
  rcases call with
    ⟨point, flag, dequeuing, ifBit, data, dequeueIfBit, dequeueData⟩
  cases point with
  | idle => exact absurd rfl busy.1
  | asleep => exact absurd rfl busy.2.1
  | returning => exact absurd rfl busy.2.2
  | dequeueTest =>
      by_cases none : queue.isFull = 0#8 ∧ queue.start = queue.end
      · simp only [advance, if_pos none]
        exact ⟨holds, accepted⟩
      · simp only [advance, if_neg none]
        exact ⟨holds, accepted⟩
  | dequeueAdvance =>
      rcases correct with ⟨held, _, _, first, _, _⟩
      cases items : observed.pending with
      | nil =>
          rw [items] at first
          cases first
      | cons oldest rest =>
          rw [items] at first holds accepted
          have same : oldest = dequeueData := Option.some.inj first
          subst same
          constructor
          · change Holds _ observed.pending.tail
            rw [items]
            exact holds_advance holds
          · change observed.accepted =
              observed.returned ++ ([oldest] ++ observed.pending.tail)
            rw [items, accepted, held]
            rfl
  | test =>
      by_cases again : dequeuing = 0#8
      · simp only [advance, if_neg (not_not.mpr again)]
        exact ⟨holds, accepted⟩
      · simp only [advance, if_pos again]
        exact ⟨holds, accepted⟩
  | lock => exact ⟨holds, accepted⟩
  | lockCli => exact ⟨holds, accepted⟩
  | dequeueLock => exact ⟨holds, accepted⟩
  | dequeueLockCli => exact ⟨holds, accepted⟩
  | dequeueFail => exact ⟨holds, accepted⟩
  | dequeueSucceed => exact ⟨holds, accepted⟩
  | dequeueLoad => exact ⟨holds, accepted⟩
  | dequeueClear => exact ⟨holds, accepted⟩
  | dequeueUnlock => exact ⟨holds, accepted⟩
  | check => exact ⟨holds, accepted⟩
  | unlock => exact ⟨holds, accepted⟩

/-- Only a call which is to try again falls asleep. -/
theorem dequeuing_of_asleep (busy : call.point.Busy)
    (asleep : (advance queue call).2.point = .asleep) :
    (advance queue call).2.dequeuing ≠ 0#8 := by
  rcases call with
    ⟨point, flag, dequeuing, ifBit, data, dequeueIfBit, dequeueData⟩
  cases point with
  | idle => exact absurd rfl busy.1
  | asleep => exact absurd rfl busy.2.1
  | returning => exact absurd rfl busy.2.2
  | dequeueTest =>
      by_cases none : queue.isFull = 0#8 ∧ queue.start = queue.end
      · simp only [advance, if_pos none] at asleep
        cases asleep
      · simp only [advance, if_neg none] at asleep
        cases asleep
  | test =>
      by_cases again : dequeuing = 0#8
      · simp only [advance, if_neg (not_not.mpr again)] at asleep
        cases asleep
      · exact again
  | lock => cases asleep
  | lockCli => cases asleep
  | dequeueLock => cases asleep
  | dequeueLockCli => cases asleep
  | dequeueFail => cases asleep
  | dequeueSucceed => cases asleep
  | dequeueLoad => cases asleep
  | dequeueAdvance => cases asleep
  | dequeueClear => cases asleep
  | dequeueUnlock => cases asleep
  | check => cases asleep
  | unlock => cases asleep

/-- Where interrupts are on, nothing depends on the queue. -/
theorem pointCorrect_interrupt {later : KeycodeQueue} {seen : Observed}
    (correct : PointCorrect caller queue call observed)
    (enabled : call.interruptFlag = true)
    (held : seen.held = observed.held) :
    PointCorrect caller later call seen ∧ call.point ≠ .dequeueClear := by
  rcases call with
    ⟨point, flag, dequeuing, ifBit, data, dequeueIfBit, dequeueData⟩
  have on : flag = true := enabled
  subst on
  cases point with
  | idle => exact ⟨held.trans correct, by simp⟩
  | lock => exact ⟨⟨held.trans correct.1, correct.2⟩, by simp⟩
  | lockCli => exact ⟨⟨held.trans correct.1, correct.2⟩, by simp⟩
  | test => exact ⟨held.trans correct, by simp⟩
  | asleep => exact ⟨held.trans correct, by simp⟩
  | returning => exact ⟨held.trans correct, by simp⟩
  | dequeueLock => cases correct.2.2
  | dequeueLockCli => cases correct.2.2.1
  | dequeueTest => cases correct.2.2.1
  | dequeueFail => cases correct.2.2.1.1
  | dequeueSucceed => cases correct.2.2.1.1
  | dequeueLoad => cases correct.2.2.1.1
  | dequeueAdvance => cases correct.2.2.1.1
  | dequeueClear => cases correct.2.2.1.1
  | dequeueUnlock => cases correct.2.2.1.1
  | check => cases correct.2.2.1
  | unlock => cases correct.2

end Statements

/-! ## Runs -/

section Runs

variable {system after : System} {observed : Observed} {label : Label}
  {call : Call}

@[simp]
theorem call_setCall (system : System) (call : Call) :
    (system.setCall call).call = call :=
  if_pos rfl

theorem calls_setCall_of_ne {caller : Nat} (other : caller ≠ system.running) :
    (system.setCall call).calls caller = system.calls caller :=
  if_neg other

/-- A step of the running caller does not concern the other callers. -/
theorem Correct.setCall {queue : KeycodeQueue} {seen : Observed}
    (correct : Correct system observed)
    (conserved : Conserved queue call.point seen)
    (point : PointCorrect system.running queue call seen)
    (asleep : call.point = .asleep → call.dequeuing ≠ 0#8) :
    Correct { system.setCall call with queue := queue } seen where
  conserved := by
    change Conserved queue (system.setCall call).call.point seen
    rw [call_setCall]
    exact conserved
  point := by
    change PointCorrect system.running queue (system.setCall call).call seen
    rw [call_setCall]
    exact point
  others := by
    intro caller other
    have different : caller ≠ system.running := other
    change ((system.setCall call).calls caller).point = _ ∨
      ((system.setCall call).calls caller).point = _
    rw [calls_setCall_of_ne different]
    exact correct.others caller different
  asleep := by
    intro caller isAsleep
    change ((system.setCall call).calls caller).point = _ at isAsleep
    change ((system.setCall call).calls caller).dequeuing ≠ _
    by_cases same : caller = system.running
    · subst same
      change (system.setCall call).call.point = _ at isAsleep
      change (system.setCall call).call.dequeuing ≠ _
      rw [call_setCall] at isAsleep ⊢
      exact asleep isAsleep
    · rw [calls_setCall_of_ne same] at isAsleep ⊢
      exact correct.asleep caller isAsleep

/-- A caller which is not in a critical section sees the queue as it is. -/
theorem Conserved.move {queue : KeycodeQueue} {before point : Point}
    (conserved : Conserved queue before observed)
    (outside : before ≠ .dequeueClear) (stays : point ≠ .dequeueClear) :
    Conserved queue point observed := by
  rcases conserved with ⟨holds, accepted⟩
  rw [settled, if_neg outside] at holds
  refine ⟨?_, accepted⟩
  rw [settled, if_neg stays]
  exact holds

theorem Correct.keyboard (correct : Correct system observed)
    (enabled : system.call.interruptFlag = true) (status data : Byte) :
    Correct { system with queue := receive system.queue status data }
      (observed.observe (receiveLabel status data)) := by
  rcases correct with ⟨⟨holds, accepted⟩, point, others, asleep⟩
  rw [receive, receiveLabel]
  split
  next =>
    have held : (observed.observe (.arrives data)).held = observed.held := by
      rw [Observed.observe]
      split
      next => rfl
      next => rfl
    rcases pointCorrect_interrupt point enabled held with ⟨correct, outside⟩
    rw [settled, if_neg outside] at holds
    have stored := holds_enqueue holds data
    refine ⟨⟨?_, ?_⟩, correct, others, asleep⟩
    · change Holds (asBuffer (settled _ system.call.point)) _
      rw [settled, if_neg outside, Observed.observe]
      split at stored
      next room =>
        rw [if_pos room]
        exact stored
      next full =>
        rw [if_neg full]
        exact stored
    · rw [Observed.observe]
      split
      next =>
        change observed.accepted ++ [data] = _ ++ (_ ++ (_ ++ [data]))
        rw [accepted]
        simp
      next => exact accepted
  next => exact ⟨⟨holds, accepted⟩, point, others, asleep⟩

theorem Correct.switch (correct : Correct system observed) (other : Nat)
    (resting : system.call.point = .idle ∨ system.call.point = .asleep) :
    Correct { system with running := other } observed := by
  by_cases same : other = system.running
  · subst same
    exact correct
  have nothingHeld : observed.held = [] := by
    have point := correct.point
    rw [PointCorrect] at point
    rcases resting with idle | asleep
    · rw [idle] at point
      exact point
    · rw [asleep] at point
      exact point
  have outside : system.call.point ≠ .dequeueClear := by
    rcases resting with idle | asleep
    · simp [idle]
    · simp [asleep]
  have otherResting := correct.others other same
  have stays : (system.calls other).point ≠ .dequeueClear := by
    rcases otherResting with idle | asleep
    · simp [idle]
    · simp [asleep]
  refine ⟨correct.conserved.move outside stays, ?_, ?_, correct.asleep⟩
  · change PointCorrect other system.queue (system.calls other) observed
    rw [PointCorrect]
    rcases otherResting with idle | asleep
    · rw [idle]
      exact nothingHeld
    · rw [asleep]
      exact nothingHeld
  · intro caller different
    by_cases wasRunning : caller = system.running
    · rw [wasRunning]
      exact resting
    · exact correct.others caller wasRunning

/-- Every step keeps the invariant. -/
theorem Correct.step (correct : Correct system observed)
    (taken : Step system label after) :
    Correct after (observed.observe label) := by
  have point := correct.point
  have conserved := correct.conserved
  cases taken with
  | keyboard status data enabled => exact correct.keyboard enabled status data
  | flags flag idle =>
      rw [PointCorrect, idle] at point
      refine correct.setCall conserved ?_ (by simp [idle])
      rw [PointCorrect, idle]
      exact point
  | calls idle =>
      rw [PointCorrect, idle] at point
      exact correct.setCall (conserved.move (by simp [idle]) (by simp))
        ⟨point, by simp⟩ (by simp)
  | advances busy =>
      exact correct.setCall (conserved_advance point conserved busy)
        (pointCorrect_advance point conserved busy) (dequeuing_of_asleep busy)
  | wakes asleep =>
      rw [PointCorrect, asleep] at point
      exact correct.setCall (conserved.move (by simp [asleep]) (by simp))
        ⟨point, correct.asleep _ asleep⟩ (by simp)
  | returns done =>
      rw [PointCorrect, done] at point
      have moved : Conserved system.queue .idle observed :=
        conserved.move (by simp [done]) (by simp)
      refine correct.setCall ⟨moved.holds, ?_⟩ rfl (by simp)
      change observed.accepted =
        (observed.returned ++ [system.call.data]) ++ ([] ++ observed.pending)
      have held : observed.held = [system.call.data] := point
      rw [conserved.accepted, held]
      simp
  | switches other resting => exact correct.switch other resting

theorem correct_of_initial (initial : Initial system) :
    Correct system .start := by
  rcases initial with ⟨⟨queue, started⟩, idle⟩
  have here : system.call.point = .idle := idle system.running
  refine ⟨⟨?_, rfl⟩, ?_, fun caller _ => .inl (idle caller), ?_⟩
  · rw [settled, here, started]
    exact ⟨Nat.zero_le _, rfl, by simp [asBuffer, conInit, Observed.start],
      fun index inList => absurd inList (Nat.not_lt_zero index)⟩
  · rw [PointCorrect, here]
    rfl
  · intro caller asleep
    rw [idle caller] at asleep
    cases asleep

theorem Run.correct (run : Run system observed) : Correct system observed := by
  induction run with
  | start initial => exact correct_of_initial initial
  | step before taken induction => exact induction.step taken

end Runs

/-- All callers are idle with interrupts on. -/
def quiet : System where
  queue := conInit ⟨fun _ => 0#8, 0#8, 0#8, 0#8, 0#8⟩
  calls := fun _ => ⟨.idle, true, 0#8, 0#8, 0#8, 0#8, 0#8⟩
  running := 0

end MagicalOs.Console.KeyboardQueue
