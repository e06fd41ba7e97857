import MagicalOs.Library.InterruptController
import MagicalOs.Kernel.InterruptTable
import MagicalOs.Kernel.QueueInvariant

/-!
# The delivery of interrupts

The kernel runs between two interrupt controllers and its interrupt handlers.
Devices raise lines at any time; with interrupts on, the processor takes the
interrupt which the first controller delivers, and the handler is one step of
the kernel.  The steps in between are system calls.  Everything the kernel
writes to the ports of the controllers takes effect on them.

Each handler ends its own interrupt exactly once, on every path.  `schedule`
also ends the interrupt of the timer when a system call has called it, but then
none is in service.  So between two steps no interrupt is ever in service, and
every line of the timer and the keyboard which has been raised is delivered to
its handler, or after the other one.
-/

namespace MagicalOs.Kernel.InterruptDelivery

open MagicalOs.Library.ByteMemory
open MagicalOs.Library.InterruptController
open MagicalOs.Library.InterruptController.Controller
open MagicalOs.Kernel.MachineState
open MagicalOs.Kernel.TaskStructure
open MagicalOs.Kernel.TaskCreation
open MagicalOs.Kernel.SchedQueues
open MagicalOs.Kernel.Scheduler
open MagicalOs.Kernel.GateDescriptors
open MagicalOs.Kernel.InterruptTable
open MagicalOs.Kernel.KernelRuns
open MagicalOs.Kernel.QueueInvariant

/-! ## The two controllers -/

structure Pics where
  master : Controller
  slave : Controller

/-- `outb_p(value, port)`, for the ports of the controllers. -/
def Pics.outbP (pics : Pics) (write : PortWrite) : Pics :=
  if write.port = 0x0020#16 then
    { pics with master := pics.master.command write.value }
  else if write.port = 0x0021#16 then
    { pics with master := pics.master.data write.value }
  else if write.port = 0x00a0#16 then
    { pics with slave := pics.slave.command write.value }
  else if write.port = 0x00a1#16 then
    { pics with slave := pics.slave.data write.value }
  else
    pics

def Pics.outbPs (pics : Pics) (writes : List PortWrite) : Pics :=
  writes.foldl Pics.outbP pics

/-- `intr_init`. -/
def intrInit (pics : Pics) : Pics :=
  pics.outbPs
    [⟨0x11#8, 0x0020#16⟩, ⟨0x20#8, 0x0021#16⟩, ⟨0x04#8, 0x0021#16⟩,
      ⟨0x01#8, 0x0021#16⟩, ⟨0xff#8, 0x0021#16⟩,
      ⟨0x11#8, 0x00a0#16⟩, ⟨0x28#8, 0x00a1#16⟩, ⟨0x02#8, 0x00a1#16⟩,
      ⟨0x01#8, 0x00a1#16⟩, ⟨0xff#8, 0x00a1#16⟩]

/-- `intr_get_mask_master`. -/
def intrGetMaskMaster (pics : Pics) : Byte := pics.master.mask

/-- `intr_set_mask_master`. -/
def intrSetMaskMaster (pics : Pics) (mask : Byte) : Pics :=
  pics.outbP ⟨mask, 0x0021#16⟩

/-- `INTR_MASK_BIT_TIMER`. -/
def intrMaskBitTimer : Byte := 0x01#8

/-- `INTR_MASK_BIT_KB`. -/
def intrMaskBitKb : Byte := 0x02#8

/-- What `kern_init` does to the controllers before `sti`. -/
def kernInitPics (pics : Pics) : Pics :=
  let pics := intrInit pics
  let mask := intrGetMaskMaster pics
  let mask := mask &&& ~~~(intrMaskBitTimer ||| intrMaskBitKb)
  intrSetMaskMaster pics mask

/-- A device raises a line of the first controller. -/
def Pics.raise (pics : Pics) (line : Nat) : Pics :=
  { pics with master := pics.master.raise line }

/-- The processor takes the interrupt of a line of the first controller. -/
def Pics.acknowledge (pics : Pics) (line : Nat) : Pics :=
  { pics with master := pics.master.acknowledge line }

/-! ## What the steps of the kernel write -/

/-- The line whose handler deals with an event. -/
inductive Serves : Nat → Event → Prop where
  | timer : Serves 0 .timer
  | keyboard (status data : Byte) : Serves 1 (.keyboard status data)

/-- The event is part of a system call. -/
inductive IsCall : Event → Prop where
  | taskInit (file : File) : IsCall (.taskInit file)
  | wakeupAfterMsec (msec : Word) : IsCall (.wakeupAfterMsec msec)
  | wakeupAfterEvent (eventType : Byte) : IsCall (.wakeupAfterEvent eventType)

/-- The writes between two states of the machine. -/
def written (machine after : Machine) : List PortWrite :=
  after.ports.drop machine.ports.length

/-- The write which ends the interrupt of a line. -/
def ending (line : Nat) : PortWrite := ⟨endOf line, 0x0020#16⟩

section Writes

variable {layout : Layout} {machine after : Machine} {cause : SchedCause}
  {iterations task : Nat}

theorem written_of_append {writes : List PortWrite}
    (ports : after.ports = machine.ports ++ writes) :
    written machine after = writes := by
  rw [written, ports, List.drop_left]

theorem switchTo_ports (machine : Machine) (cause : SchedCause)
    (task : Nat) :
    (switchTo machine cause task).ports = machine.ports ++ [ending 0] := by
  rw [switchTo]
  split
  next => rfl
  next => rfl

theorem dispatch_ports (machine : Machine) (cause : SchedCause) :
    (dispatch machine cause).ports = machine.ports ++ [ending 0] := by
  rw [dispatch]
  split
  next =>
    split
    next => rfl
    next => rfl
  next =>
    split
    next =>
      split
      next => exact switchTo_ports machine cause _
      next => rfl
    next => exact switchTo_ports machine cause _

/-- `schedule` ends the interrupt of the timer once, whatever it decides. -/
theorem schedule_ports (machine : Machine) (cause : SchedCause) :
    (schedule machine cause).ports = machine.ports ++ [ending 0] := by
  rw [schedule]
  split
  next => rfl
  next =>
    split
    next => exact dispatch_ports (markTimeSlice machine 0#8) cause
    next => exact dispatch_ports machine cause

theorem updateLoop_ports {queue : Machine → Queue}
    {visit : Machine → Nat → Machine}
    (keeps : ∀ machine task, (visit machine task).ports = machine.ports)
    (ran : updateLoop queue visit iterations machine task = some after) :
    after.ports = machine.ports := by
  induction iterations generalizing machine task with
  | zero => cases ran
  | succ iterations induction =>
      rw [updateLoop] at ran
      split at ran
      next => exact (induction ran).trans (keeps machine task)
      next =>
        cases ran
        exact keeps machine task

theorem visitSleeper_ports (machine : Machine) (task : Nat) :
    (visitSleeper machine task).ports = machine.ports := by
  rw [visitSleeper]
  split
  next => rfl
  next => rfl

theorem visitWaiter_ports (eventType : Byte) (machine : Machine)
    (task : Nat) :
    (visitWaiter eventType machine task).ports = machine.ports := by
  rw [visitWaiter]
  split
  next => rfl
  next => rfl

theorem tick_ports (ran : tick iterations machine = some after) :
    after.ports = machine.ports := by
  rcases Option.map_eq_some_iff.mp ran with ⟨⟨result, last⟩, updated, rfl⟩
  rw [schedUpdateWakeupq] at updated
  split at updated
  next =>
    cases updated
    rfl
  next =>
    rcases Option.map_eq_some_iff.mp updated with ⟨state, looped, same⟩
    cases same
    have kept := updateLoop_ports visitSleeper_ports looped
    exact kept

theorem doIrKeyboard_ports {status data : Byte}
    (ran : doIrKeyboard iterations machine status data = some after) :
    after.ports = machine.ports ++ [ending 1] := by
  rcases Option.map_eq_some_iff.mp ran with ⟨⟨result, last⟩, updated, rfl⟩
  have received : (receiveKeycode machine status data).ports =
      machine.ports := by
    rw [receiveKeycode]
    split
    next => rfl
    next => rfl
  have kept : last.ports = machine.ports := by
    rw [schedUpdateWakeupevq] at updated
    split at updated
    next =>
      cases updated
      exact received
    next =>
      rcases Option.map_eq_some_iff.mp updated with ⟨state, looped, same⟩
      cases same
      exact (updateLoop_ports (visitWaiter_ports _) looped).trans received
  change last.ports ++ [ending 1] = _
  rw [kept]

theorem saveSuccessor_ports (layout : Layout) (machine : Machine) :
    (saveSuccessor layout machine).ports = machine.ports := by
  rw [saveSuccessor]
  split
  next => rfl
  next => rfl

theorem taskInit_ports (machine : Machine) (file : File) :
    (taskInit machine file).ports = machine.ports := by
  cases allocated : allocatePages machine.heapAllocTable with
  | mk pages heap =>
      rw [taskInit, allocated]
      rfl

/-- A handler ends the interrupt it serves, once, and writes nothing else. -/
theorem Serves.written {line : Nat} {event : Event}
    (serves : Serves line event) (taken : Step layout machine event after) :
    written machine after = [ending line] := by
  rcases taken with ⟨_, iterations, ran⟩
  apply written_of_append
  cases serves with
  | timer =>
      rcases Option.map_eq_some_iff.mp ran with ⟨entering, ticked, rfl⟩
      rw [schedule_ports, tick_ports ticked]
  | keyboard status data => exact doIrKeyboard_ports ran

/-- A system call writes nothing, or ends an interrupt of the timer. -/
theorem IsCall.written {event : Event} (isCall : IsCall event)
    (taken : Step layout machine event after) :
    written machine after = [] ∨ written machine after = [ending 0] := by
  rcases taken with ⟨_, iterations, ran⟩
  cases isCall with
  | taskInit file =>
      left
      cases ran
      apply written_of_append
      rw [List.append_nil]
      exact taskInit_ports machine file
  | wakeupAfterMsec msec =>
      right
      cases ran
      apply written_of_append
      rw [callWakeupAfterMsec, schedule_ports]
      exact congrArg (· ++ [ending 0]) (saveSuccessor_ports layout machine)
  | wakeupAfterEvent eventType =>
      right
      cases ran
      apply written_of_append
      rw [callWakeupAfterEvent, schedule_ports]
      exact congrArg (· ++ [ending 0]) (saveSuccessor_ports layout machine)

end Writes

/-! ## The whole system -/

structure System where
  machine : Machine
  pics : Pics

/-- The handler of a line has run. -/
def System.served (system : System) (line : Nat) (after : Machine) :
    System where
  machine := after
  pics :=
    (system.pics.acknowledge line).outbPs (written system.machine after)

/-- A system call has run. -/
def System.called (system : System) (after : Machine) : System where
  machine := after
  pics := system.pics.outbPs (written system.machine after)

/-- The states the system can reach, with the tasks which were created. -/
inductive Delivery (layout : Layout) (mem : Memory) :
    System → List Nat → Prop where
  | boot (pics : Pics) :
      Delivery layout mem ⟨boot layout mem, kernInitPics pics⟩ []
  | raise {system : System} {created : List Nat}
      (before : Delivery layout mem system created) (line : Nat) :
      Delivery layout mem
        { system with pics := system.pics.raise line } created
  | interrupt {system : System} {created : List Nat} {line : Nat}
      {event : Event} {after : Machine}
      (before : Delivery layout mem system created)
      (delivers : system.pics.master.Delivers line)
      (serves : Serves line event)
      (taken : Step layout system.machine event after) :
      Delivery layout mem (system.served line after) created
  | call {system : System} {created : List Nat} {event : Event}
      {after : Machine} (before : Delivery layout mem system created)
      (isCall : IsCall event)
      (taken : Step layout system.machine event after) :
      Delivery layout mem (system.called after)
        (created ++ createdBy system.machine event)

/-- The state of the controllers between two steps. -/
structure Quiet (pics : Pics) : Prop where
  master : pics.master.Idle 0x20#8 0xfc#8
  slave : pics.slave.Idle 0x28#8 0xff#8

section Controllers

variable {pics : Pics} {line : Nat}

/-- From any state, `kern_init` leaves the controllers like this. -/
theorem kernInitPics_quiet (pics : Pics) : Quiet (kernInitPics pics) := by
  have master := initialize_idle pics.master 0x20#8 0x04#8 0xff#8 (by decide)
  have slave := initialize_idle pics.slave 0x28#8 0x02#8 0xff#8 (by decide)
  have masked := master.data
    (0xff#8 &&& ~~~(intrMaskBitTimer ||| intrMaskBitKb))
  constructor
  · rw [kernInitPics, intrGetMaskMaster]
    have mask : (intrInit pics).master.mask = 0xff#8 := master.mask
    rw [mask]
    exact masked
  · exact slave

theorem outbPs_ending (pics : Pics) (line : Nat) :
    pics.outbPs [ending line] =
      { pics with master := pics.master.command (endOf line) } := rfl

/-- The controllers are quiet again behind a handler. -/
theorem Quiet.served (quiet : Quiet pics) (small : line < 8) :
    Quiet ((pics.acknowledge line).outbPs [ending line]) := by
  rw [outbPs_ending]
  exact ⟨(quiet.master.served small).1, quiet.slave⟩

/-- An interrupt which is ended by a system call is not in service. -/
theorem Quiet.called (quiet : Quiet pics) :
    pics.outbPs [ending 0] = pics := by
  rw [outbPs_ending, quiet.master.command_endOf (by decide)]

/-- Only the timer and the keyboard are not masked. -/
theorem Quiet.onlyLines (quiet : Quiet pics)
    (delivers : pics.master.Delivers line) : line = 0 ∨ line = 1 := by
  have unmasked := delivers.requests.2
  rw [quiet.master.mask] at unmasked
  have isRaised := delivers.requests.1
  have small : line < 8 := BitVec.lt_of_getLsbD isRaised
  have masked : ∀ line < 8, (0xfc#8).getLsbD line = false →
      line = 0 ∨ line = 1 := by decide
  exact masked line small unmasked

theorem Quiet.requests (quiet : Quiet pics)
    (raised : pics.master.request.getLsbD line = true)
    (known : line = 0 ∨ line = 1) : pics.master.Requests line := by
  refine ⟨raised, ?_⟩
  rw [quiet.master.mask]
  rcases known with rfl | rfl
  · rfl
  · rfl

end Controllers

section Deliveries

variable {layout : Layout} {mem : Memory} {system : System}
  {created : List Nat} {line : Nat}

theorem Serves.small {event : Event} (serves : Serves line event) :
    line < 8 := by
  cases serves with
  | timer => decide
  | keyboard status data => decide

/-- In every reachable state the controllers are quiet. -/
theorem Delivery.quiet (delivery : Delivery layout mem system created) :
    Reachable layout mem system.machine created ∧ Quiet system.pics := by
  induction delivery with
  | boot pics => exact ⟨.boot, kernInitPics_quiet pics⟩
  | raise before line induction =>
      rcases induction with ⟨reachable, quiet⟩
      exact ⟨reachable, quiet.master.raise line, quiet.slave⟩
  | @interrupt system created line event after before delivers serves taken
      induction =>
      rcases induction with ⟨reachable, quiet⟩
      have later : Reachable layout mem _ _ :=
        .step reachable trivial taken
      have none : createdBy system.machine event = [] := by
        cases serves with
        | timer => exact rfl
        | keyboard status data => exact rfl
      rw [none, List.append_nil] at later
      refine ⟨later, ?_⟩
      rw [System.served, serves.written taken]
      exact quiet.served serves.small
  | call before isCall taken induction =>
      rcases induction with ⟨reachable, quiet⟩
      refine ⟨.step reachable trivial taken, ?_⟩
      rw [System.called]
      rcases isCall.written taken with none | timer
      · rw [none]
        exact quiet
      · rw [timer, quiet.called]
        exact quiet

/-- The requests behind a handler are those of before, without its own. -/
theorem requested_served {event : Event} {after : Machine} {other : Nat}
    (quiet : Quiet system.pics) (serves : Serves line event)
    (taken : Step layout system.machine event after) (small : other < 8) :
    (system.served line after).pics.master.request.getLsbD other =
      (system.pics.master.request.getLsbD other && !decide (line = other)) := by
  have request := (quiet.master.served serves.small).2
  rw [System.served, serves.written taken, outbPs_ending]
  change ((system.pics.master.acknowledge line).command
    (endOf line)).request.getLsbD other = _
  rw [request]
  exact requested_acknowledge small

/-- The handler which runs for a line. -/
def lineHandler (line : Nat) : Handler :=
  if line = 0 then .timerHandler else .keyboardHandler

/--
In every interleaving of raised lines, interrupts and system calls, with the
controllers in any state before the kernel started: only the two lines are
delivered, each through a gate which leads to its handler; when one of them has
been raised, it or the one before it is delivered; the handler can run, and it
takes away its own request and no other; and a system call takes away none.
-/
theorem interrupts_delivered (symbols : Symbols) (idt : InterruptTable)
    (delivery : Delivery layout mem system created) :
    (∀ line, ¬system.pics.slave.Delivers line) ∧
    (∀ line, system.pics.master.Delivers line →
      (line = 0 ∨ line = 1) ∧
        LeadsTo symbols (kernInitIdt symbols idt)
          (system.pics.master.vector line) (lineHandler line)) ∧
    (∀ line, line = 0 ∨ line = 1 →
      system.pics.master.request.getLsbD line = true →
      ∃ first ≤ line, system.pics.master.Delivers first ∧
        ∀ event, Serves first event →
          ∃ after, Step layout system.machine event after) ∧
    (∀ line event after, Serves line event →
      Step layout system.machine event after → ∀ other < 8,
      (system.served line after).pics.master.request.getLsbD other =
        (system.pics.master.request.getLsbD other &&
          !decide (line = other))) ∧
    ∀ event after, IsCall event → Step layout system.machine event after →
      (system.called after).pics = system.pics := by
  rcases delivery.quiet with ⟨reachable, quiet⟩
  rcases run_invariant reachable with ⟨queues, holds⟩
  refine ⟨?_, ?_, ?_, ?_, ?_⟩
  · intro line delivers
    have small : line < 8 := BitVec.lt_of_getLsbD delivers.requests.1
    have unmasked := delivers.requests.2
    rw [quiet.slave.mask] at unmasked
    have masked : ∀ line < 8, (0xff#8).getLsbD line = true := by decide
    rw [masked line small] at unmasked
    cases unmasked
  · intro line delivers
    have known := quiet.onlyLines delivers
    refine ⟨known, ?_⟩
    rw [vector, quiet.master.vectors]
    rcases known with rfl | rfl
    · exact kernInitIdt_leadsTo symbols idt 0x20#8
    · exact kernInitIdt_leadsTo symbols idt 0x21#8
  · intro line known raised
    rcases quiet.master.exists_delivers (quiet.requests raised known) with
      ⟨first, early, delivers⟩
    refine ⟨first, early, delivers, ?_⟩
    intro event serves
    cases serves with
    | timer => exact holds.progress trivial
    | keyboard status data => exact holds.progress trivial
  · intro line event after serves taken other small
    exact requested_served quiet serves taken small
  · intro event after isCall taken
    rcases isCall.written taken with none | timer
    · rw [System.called, none]
      rfl
    · rw [System.called, timer]
      exact quiet.called

/-- Controllers which have not been initialized. -/
def resetController : Controller where
  vectors := 0#8
  mask := 0#8
  request := 0#8
  inService := 0#8
  automaticEnd := false
  givesVector := false
  expected := []

/-- The first tick is delivered, and the handler can run. -/
theorem firstTick_delivered :
    ∃ system, Delivery Layout.sample (fun _ => 0#8) system [] ∧
      system.pics.master.Delivers 0 ∧
      ∃ after, Step Layout.sample system.machine .timer after := by
  have delivery :
      Delivery Layout.sample (fun _ => 0#8)
        { machine := boot Layout.sample fun _ => 0#8
          pics := (kernInitPics ⟨resetController, resetController⟩).raise 0 }
        [] := .raise (.boot _) 0
  have raised :
      ((kernInitPics ⟨resetController, resetController⟩).raise
        0).master.request.getLsbD 0 = true := by decide
  have next := (interrupts_delivered (fun _ => 0x8000#32) (fun _ => 0#32)
    delivery).2.2.1 0 (.inl rfl) raised
  rcases next with ⟨first, early, delivers, runs⟩
  have isFirst : first = 0 := Nat.le_zero.mp early
  subst isFirst
  exact ⟨_, delivery, delivers, runs .timer .timer⟩

end Deliveries

end MagicalOs.Kernel.InterruptDelivery
