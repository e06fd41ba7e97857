import MagicalOs.Library.ByteMemory
import Mathlib.Data.Nat.Find

/-!
# An interrupt controller

The programmable controller with eight lines, as a processor sees it behind its
two ports.  A command with bit 4 begins an initialization, which takes the
following data words; otherwise a data word is the mask of the lines.  Of the
operation commands only the specific end of an interrupt is modelled, the
others have no effect.

A line which has been raised is delivered when it is not masked, comes first
among those and neither it nor an earlier one is in service.
-/

namespace MagicalOs.Library.InterruptController

open MagicalOs.Library.ByteMemory

/-- The data words of an initialization. -/
inductive InitWord where
  | vectors
  | cascade
  | mode
  deriving DecidableEq

structure Controller where
  vectors : Byte
  mask : Byte
  request : Byte
  inService : Byte
  /-- An interrupt is not in service once it is acknowledged. -/
  automaticEnd : Bool
  /-- The processor gets a vector, and not a call instruction. -/
  givesVector : Bool
  expected : List InitWord
  deriving DecidableEq

namespace Controller

/-- The data words which an initialization command announces. -/
def announced (value : Byte) : List InitWord :=
  .vectors :: ((if value.getLsbD 1 then [] else [.cascade]) ++
    if value.getLsbD 0 then [.mode] else [])

/-- A write to the command port. -/
def command (controller : Controller) (value : Byte) : Controller :=
  if value.getLsbD 4 then
    { controller with
      mask := 0#8
      request := 0#8
      inService := 0#8
      automaticEnd := false
      givesVector := false
      expected := announced value }
  else if value.extractLsb' 3 5 = 0b01100#5 then
    { controller with
      inService :=
        controller.inService &&&
          ~~~BitVec.twoPow 8 (value.extractLsb' 0 3).toNat }
  else
    controller

/-- A write to the data port. -/
def data (controller : Controller) (value : Byte) : Controller :=
  match controller.expected with
  | [] => { controller with mask := value }
  | .vectors :: rest =>
      { controller with vectors := value &&& 0xf8#8, expected := rest }
  | .cascade :: rest => { controller with expected := rest }
  | .mode :: rest =>
      { controller with
        automaticEnd := value.getLsbD 1
        givesVector := value.getLsbD 0
        expected := rest }

/-- A device raises a line. -/
def raise (controller : Controller) (line : Nat) : Controller :=
  { controller with
    request := controller.request ||| BitVec.twoPow 8 line }

/-- The line has been raised and is not masked. -/
def Requests (controller : Controller) (line : Nat) : Prop :=
  controller.request.getLsbD line = true ∧
    controller.mask.getLsbD line = false

instance (controller : Controller) (line : Nat) :
    Decidable (controller.Requests line) :=
  inferInstanceAs (Decidable (_ ∧ _))

/-- The controller interrupts the processor for the line. -/
structure Delivers (controller : Controller) (line : Nat) : Prop where
  requests : controller.Requests line
  first : ∀ other < line, ¬controller.Requests other
  idle : ∀ other ≤ line, controller.inService.getLsbD other = false
  initialized : controller.expected = []

/-- The vector of a line. -/
def vector (controller : Controller) (line : Nat) : Byte :=
  controller.vectors ||| BitVec.ofNat 8 line

/-- The processor takes the interrupt of a line. -/
def acknowledge (controller : Controller) (line : Nat) : Controller :=
  { controller with
    request := controller.request &&& ~~~BitVec.twoPow 8 line
    inService :=
      if controller.automaticEnd then controller.inService
      else controller.inService ||| BitVec.twoPow 8 line }

/--
The controller is initialized to give the processor vectors from a base on, the
lines of a mask are masked, and no interrupt is in service.
-/
structure Idle (controller : Controller) (vectors mask : Byte) : Prop where
  vectors : controller.vectors = vectors
  mask : controller.mask = mask
  inService : controller.inService = 0#8
  automaticEnd : controller.automaticEnd = false
  givesVector : controller.givesVector = true
  expected : controller.expected = []

/-! ## Initialization -/

section Initialization

variable {controller : Controller} {vectors mask : Byte} {line : Nat}

/-- The command, its three data words and a mask, from any state. -/
theorem initialize_idle (controller : Controller)
    (vectors cascade mask : Byte) (aligned : vectors &&& 0xf8#8 = vectors) :
    (((((controller.command 0x11#8).data vectors).data cascade).data
      0x01#8).data mask).Idle vectors mask := by
  have begins : controller.command 0x11#8 =
      { controller with
        mask := 0#8
        request := 0#8
        inService := 0#8
        automaticEnd := false
        givesVector := false
        expected := [.vectors, .cascade, .mode] } := rfl
  rw [begins]
  exact
    { vectors := aligned
      mask := rfl
      inService := rfl
      automaticEnd := rfl
      givesVector := rfl
      expected := rfl }

/-- A further data word is a new mask. -/
theorem Idle.data (idle : controller.Idle vectors mask) (value : Byte) :
    (controller.data value).Idle vectors value := by
  have masked : controller.data value = { controller with mask := value } := by
    rw [Controller.data, idle.expected]
  rw [masked]
  exact { idle with mask := rfl }

end Initialization

/-! ## Interrupts -/

section Interrupts

variable {controller : Controller} {vectors mask : Byte} {line other : Nat}

theorem getLsbD_clear {word : Byte} (small : other < 8) :
    (word &&& ~~~BitVec.twoPow 8 line).getLsbD other =
      (word.getLsbD other && !decide (line = other)) := by
  rw [BitVec.getLsbD_and, BitVec.getLsbD_not, BitVec.getLsbD_twoPow]
  by_cases same : line = other
  · subst same
    simp [small]
  · simp [small, same]

theorem Idle.raise (idle : controller.Idle vectors mask) (line : Nat) :
    (controller.raise line).Idle vectors mask :=
  { idle with }

/-- An idle controller delivers the first of the lines which request it. -/
theorem Idle.delivers_iff (idle : controller.Idle vectors mask) :
    controller.Delivers line ↔
      controller.Requests line ∧
        ∀ other < line, ¬controller.Requests other := by
  constructor
  · intro delivers
    exact ⟨delivers.requests, delivers.first⟩
  · rintro ⟨requests, first⟩
    refine ⟨requests, first, fun other _ => ?_, idle.expected⟩
    rw [idle.inService]
    exact BitVec.getLsbD_zero

/-- A line which requests an idle controller, or an earlier one, is next. -/
theorem Idle.exists_delivers (idle : controller.Idle vectors mask)
    (requests : controller.Requests line) :
    ∃ first ≤ line, controller.Delivers first := by
  have exists_first : ∃ first, controller.Requests first := ⟨line, requests⟩
  refine ⟨Nat.find exists_first, Nat.find_min' exists_first requests, ?_⟩
  apply idle.delivers_iff.mpr
  constructor
  · exact Nat.find_spec exists_first
  · intro other earlier
    exact Nat.find_min exists_first earlier

/-- The lines which have been raised, apart from the one taken, stay so. -/
theorem requested_acknowledge (small : other < 8) :
    (controller.acknowledge line).request.getLsbD other =
      (controller.request.getLsbD other && !decide (line = other)) :=
  getLsbD_clear small

/-- The command which ends the interrupt of a line. -/
def endOf (line : Nat) : Byte := 0x60#8 ||| BitVec.ofNat 8 line

theorem command_endOf (small : line < 8) (controller : Controller) :
    controller.command (endOf line) =
      { controller with
        inService := controller.inService &&& ~~~BitVec.twoPow 8 line } := by
  have isEnd : ∀ line < 8,
      (endOf line).getLsbD 4 = false ∧
        (endOf line).extractLsb' 3 5 = 0b01100#5 ∧
        ((endOf line).extractLsb' 0 3).toNat = line := by decide
  rcases isEnd line small with ⟨noInit, isSpecific, number⟩
  rw [command, noInit, isSpecific, number]
  rfl

/-- An interrupt which is taken and ended leaves the controller idle. -/
theorem Idle.served (idle : controller.Idle vectors mask)
    (small : line < 8) :
    ((controller.acknowledge line).command (endOf line)).Idle vectors mask ∧
      ((controller.acknowledge line).command (endOf line)).request =
        (controller.acknowledge line).request := by
  rw [command_endOf small]
  refine ⟨{ idle with inService := ?_ }, rfl⟩
  have inService : (controller.acknowledge line).inService =
      0#8 ||| BitVec.twoPow 8 line := by
    rw [acknowledge, idle.automaticEnd, idle.inService]
    rfl
  rw [inService, BitVec.zero_or]
  exact BitVec.and_not_self _

/-- Ending an interrupt which is not in service has no effect. -/
theorem Idle.command_endOf (idle : controller.Idle vectors mask)
    (small : line < 8) :
    controller.command (endOf line) = controller := by
  rw [Controller.command_endOf small, idle.inService, BitVec.zero_and,
    ← idle.inService]

/-- Whatever lines are raised, the controller delivers no interrupt. -/
def Silent (controller : Controller) : Prop :=
  ∀ (lines : List Nat) (line : Nat),
    ¬(lines.foldl Controller.raise controller).Delivers line

theorem mask_foldl_raise (controller : Controller) (lines : List Nat) :
    (lines.foldl Controller.raise controller).mask = controller.mask := by
  induction lines generalizing controller with
  | nil => rfl
  | cons line lines induction => exact induction (controller.raise line)

/-- A mask of all lines keeps the controller silent. -/
theorem silent_of_masked (masked : controller.mask = 0xff#8) :
    controller.Silent := by
  intro lines line delivers
  rcases delivers.requests with ⟨requested, unmasked⟩
  have small : line < 8 := BitVec.lt_of_getLsbD requested
  have masks : ∀ line < 8, (0xff#8).getLsbD line = true := by decide
  rw [mask_foldl_raise, masked, masks line small] at unmasked
  cases unmasked

end Interrupts

end Controller

end MagicalOs.Library.InterruptController
