import MagicalOs.Kernel.GateDescriptors

/-!
# The interrupt table after boot

The first instructions of the kernel point every gate of `idt` to a handler
which returns at once.  `kern_init` then sets the gates of the exceptions, first
all of them to one handler and then most of them to one of their own, and the
gates of the two hardware interrupts and of the system call.

Whatever the table held before, the processor finds in each of the 256 gates
the handler which is meant for the vector.
-/

namespace MagicalOs.Kernel.InterruptTable

open MagicalOs.Library.BitField
open MagicalOs.Library.ByteMemory
open MagicalOs.Kernel.GateDescriptors

/-- The labels of the handlers in `sys.S`. -/
inductive Handler where
  | ignoreInt
  | exceptionHandler
  | divideErrorHandler
  | debugHandler
  | nmiHandler
  | breakpointHandler
  | overflowHandler
  | boundRangeExceededHandler
  | invalidOpcodeHandler
  | deviceNotAvailableHandler
  | doubleFaultHandler
  | coprocessorSegmentOverrunHandler
  | invalidTssHandler
  | segmentNotPresentHandler
  | stackFaultHandler
  | generalProtectionHandler
  | pageFaultHandler
  | x87FpuFloatingPointErrorHandler
  | alignmentCheckHandler
  | machineCheckHandler
  | simdFloatingPointHandler
  | virtualizationHandler
  | timerHandler
  | keyboardHandler
  | syscallHandler
  deriving DecidableEq

/-- The address which the linker gives to each label. -/
abbrev Symbols := Handler → Word

/-! ## The first instructions -/

/-- `movw`: the lower half of a register. -/
def movw (register : Word) (value : Half) : Word :=
  (register &&& 0xffff0000#32) ||| value.setWidth 32

/-- The loop at `rp_sidt`, given the registers; `edi` counts words here. -/
def rpSidt (eax edx : Word) :
    (ecx : Nat) → (edi : Nat) → InterruptTable → InterruptTable
  | 0, _, idt => idt
  | ecx + 1, edi, idt =>
      let idt := Function.update idt edi eax
      let idt := Function.update idt (edi + 1) edx
      rpSidt eax edx ecx (edi + 2) idt

/-- The instructions up to `lidt`. -/
def fillIdt (symbols : Symbols) (idt : InterruptTable) : InterruptTable :=
  let edx := symbols .ignoreInt
  let eax := movw 0x00080000#32 (edx.setWidth 16)
  let edx := movw edx 0x8e00#16
  rpSidt eax edx 256 0 idt

/-! ## `kern_init` -/

/-- `EXCEPTION_MAX`. -/
def exceptionMax : Nat := 21

/-- `INTR_NUM_TIMER`. -/
def intrNumTimer : Byte := 32#8

/-- `INTR_NUM_KB`. -/
def intrNumKb : Byte := 33#8

/-- The calls of `intr_set_handler` for the exceptions, behind the loop. -/
def exceptionHandlers : List (Byte × Handler) :=
  [(0#8, .divideErrorHandler), (1#8, .debugHandler), (2#8, .nmiHandler),
    (3#8, .breakpointHandler), (4#8, .overflowHandler),
    (5#8, .boundRangeExceededHandler), (6#8, .invalidOpcodeHandler),
    (7#8, .deviceNotAvailableHandler), (8#8, .doubleFaultHandler),
    (9#8, .coprocessorSegmentOverrunHandler), (10#8, .invalidTssHandler),
    (11#8, .segmentNotPresentHandler), (12#8, .stackFaultHandler),
    (13#8, .generalProtectionHandler), (14#8, .pageFaultHandler),
    (16#8, .x87FpuFloatingPointErrorHandler), (17#8, .alignmentCheckHandler),
    (18#8, .machineCheckHandler), (19#8, .simdFloatingPointHandler),
    (20#8, .virtualizationHandler)]

/-- All calls of `intr_set_handler` in `kern_init`, in their order. -/
def kernInitHandlers : List (Byte × Handler) :=
  (List.range exceptionMax).map
      (fun i => (BitVec.ofNat 8 i, .exceptionHandler)) ++
    exceptionHandlers ++
    [(intrNumTimer, .timerHandler), (intrNumKb, .keyboardHandler),
      (intrNumUser128, .syscallHandler)]

def setHandlers (symbols : Symbols) (calls : List (Byte × Handler))
    (idt : InterruptTable) : InterruptTable :=
  calls.foldl
    (fun idt call => intrSetHandler idt call.1 (symbols call.2)) idt

/-- The table when interrupts are enabled. -/
def kernInitIdt (symbols : Symbols) (idt : InterruptTable) : InterruptTable :=
  setHandlers symbols kernInitHandlers (fillIdt symbols idt)

/-! ## The handler of a vector -/

/-- The handlers of the exceptions, by their vectors. -/
def exceptions : List Handler :=
  [.divideErrorHandler, .debugHandler, .nmiHandler, .breakpointHandler,
    .overflowHandler, .boundRangeExceededHandler, .invalidOpcodeHandler,
    .deviceNotAvailableHandler, .doubleFaultHandler,
    .coprocessorSegmentOverrunHandler, .invalidTssHandler,
    .segmentNotPresentHandler, .stackFaultHandler, .generalProtectionHandler,
    .pageFaultHandler, .exceptionHandler, .x87FpuFloatingPointErrorHandler,
    .alignmentCheckHandler, .machineCheckHandler, .simdFloatingPointHandler,
    .virtualizationHandler]

/-- What the processor is meant to do for a vector. -/
def handlerOf (vector : Byte) : Handler :=
  if vector = 0x20#8 then .timerHandler
  else if vector = 0x21#8 then .keyboardHandler
  else if vector = 0x80#8 then .syscallHandler
  else exceptions.getD vector.toNat .ignoreInt

/-- The handler of the last call for a vector, or the one from before. -/
def lastHandler (calls : List (Byte × Handler)) (vector : Byte)
    (before : Handler) : Handler :=
  calls.foldl
    (fun handler call => if call.1 = vector then call.2 else handler) before

section Table

variable {symbols : Symbols} {idt : InterruptTable} {vector : Byte}
  {handler : Handler}

/-- The loop writes the two words of each gate it passes. -/
theorem rpSidt_apply (eax edx : Word) (ecx edi : Nat) (idt : InterruptTable)
    (word : Nat) :
    rpSidt eax edx ecx edi idt word =
      if edi ≤ word ∧ word < edi + 2 * ecx then
        if (word - edi) % 2 = 0 then eax else edx
      else idt word := by
  induction ecx generalizing edi idt with
  | zero =>
      rw [rpSidt, if_neg (by omega)]
  | succ ecx induction =>
      rw [rpSidt, induction]
      by_cases first : word = edi
      · subst first
        rw [if_neg (by omega), Function.update_of_ne (by omega),
          Function.update_self, if_pos (by omega), if_pos (by omega)]
      · by_cases second : word = edi + 1
        · subst second
          rw [if_neg (by omega), Function.update_self, if_pos (by omega),
            if_neg (by omega)]
        · rw [Function.update_of_ne second, Function.update_of_ne first]
          by_cases inside : edi + 2 ≤ word ∧ word < edi + 2 + 2 * ecx
          · have parity : (word - (edi + 2)) % 2 = (word - edi) % 2 := by
              omega
            have within : edi ≤ word ∧ word < edi + 2 * (ecx + 1) := by
              omega
            rw [if_pos inside, if_pos within, parity]
          · rw [if_neg inside, if_neg (by omega)]

theorem gate_fillIdt (symbols : Symbols) (idt : InterruptTable)
    (vector : Byte) :
    gate (fillIdt symbols idt) vector.toNat =
      { low := movw 0x00080000#32 ((symbols .ignoreInt).setWidth 16)
        high := movw (symbols .ignoreInt) 0x8e00#16 } := by
  have small : vector.toNat < 256 := vector.isLt
  rw [gate, fillIdt, rpSidt_apply, rpSidt_apply, if_pos (by omega),
    if_pos (by omega), if_pos (by omega), if_neg (by omega)]

/-- The two words are those of `intr_set_handler` for a kernel vector. -/
theorem movw_eq (address : Word) :
    movw 0x00080000#32 (address.setWidth 16) = intrDscrTopHalf address ∧
      movw address 0x8e00#16 = intrDscrBottomHalf 0#8 address := by
  have lower : (address.setWidth 16).setWidth 32 =
      address &&& 0x0000ffff#32 := by
    have mask : 0x0000ffff#32 = (BitVec.allOnes 16).setWidth 32 := by decide
    apply BitVec.eq_of_getLsbD_eq
    intro index small
    rw [BitVec.getLsbD_and, mask, BitVec.getLsbD_setWidth,
      BitVec.getLsbD_setWidth, BitVec.getLsbD_setWidth,
      BitVec.getLsbD_allOnes]
    cases address.getLsbD index with
    | false => simp
    | true => simp [small]
  constructor
  · rw [movw, intrDscrTopHalf, lower]
  · rw [movw, intrDscrBottomHalf, if_neg (by decide)]
    rfl

/-- The gate of a vector leads to a handler. -/
def LeadsTo (symbols : Symbols) (idt : InterruptTable) (vector : Byte)
    (handler : Handler) : Prop :=
  DecodesGate (gate idt vector.toNat) vector (symbols handler)

/-- Up to the call gate, the filled table ignores every interrupt. -/
theorem fillIdt_leadsTo (kernel : vector ≠ intrNumUser128) :
    LeadsTo symbols (fillIdt symbols idt) vector .ignoreInt := by
  rcases movw_eq (symbols .ignoreInt) with ⟨low, high⟩
  have decodes := intrSetHandler_decodes idt 0#8 (symbols .ignoreInt)
  rw [gate_intrSetHandler, ← low, ← high, ← gate_fillIdt symbols idt vector]
    at decodes
  have dpl := decodes.dpl
  rw [if_neg (by decide)] at dpl
  refine ⟨decodes.selector, decodes.offset, decodes.interruptGate, ?_⟩
  rw [if_neg kernel, dpl]

/-- A call for a vector decides where it leads; the others keep it. -/
theorem setHandlers_leadsTo (calls : List (Byte × Handler))
    (before : LeadsTo symbols idt vector handler) :
    LeadsTo symbols (setHandlers symbols calls idt) vector
      (lastHandler calls vector handler) := by
  induction calls generalizing idt handler with
  | nil => exact before
  | cons call calls induction =>
      rw [setHandlers, lastHandler, List.foldl_cons, List.foldl_cons]
      apply induction
      by_cases same : call.1 = vector
      · rw [if_pos same, ← same]
        exact intrSetHandler_decodes idt call.1 (symbols call.2)
      · rw [if_neg same, LeadsTo, gate_intrSetHandler_of_ne]
        · exact before
        · intro equal
          exact same (BitVec.eq_of_toNat_eq equal.symm)

/-- The same if some call is for the vector, whatever it led to before. -/
theorem setHandlers_leadsTo_of_mem {calls : List (Byte × Handler)}
    (called : vector ∈ calls.map Prod.fst) :
    LeadsTo symbols (setHandlers symbols calls idt) vector
      (lastHandler calls vector handler) := by
  induction calls generalizing idt handler with
  | nil => cases called
  | cons call calls induction =>
      by_cases same : call.1 = vector
      · have first : LeadsTo symbols
            (intrSetHandler idt call.1 (symbols call.2)) vector call.2 := by
          rw [← same]
          exact intrSetHandler_decodes idt call.1 (symbols call.2)
        have later := setHandlers_leadsTo calls first
        rwa [lastHandler, List.foldl_cons, if_pos same]
      · rw [List.map_cons, List.mem_cons] at called
        have inRest := called.resolve_left (Ne.symm same)
        rw [lastHandler, List.foldl_cons, if_neg same]
        exact induction inRest

theorem lastHandler_kernInit (vector : Byte) :
    lastHandler kernInitHandlers vector .ignoreInt = handlerOf vector := by
  revert vector
  decide +kernel

/-- The last call for a vector decides, or else the loop does. -/
theorem kernInitIdt_lastHandler (symbols : Symbols) (idt : InterruptTable)
    (vector : Byte) :
    LeadsTo symbols (kernInitIdt symbols idt) vector
      (lastHandler kernInitHandlers vector .ignoreInt) := by
  rw [kernInitIdt]
  by_cases user : vector = intrNumUser128
  · apply setHandlers_leadsTo_of_mem
    rw [user]
    decide
  · exact setHandlers_leadsTo _ (fillIdt_leadsTo user)

end Table

/-- After boot every vector leads to the handler which is meant for it. -/
theorem kernInitIdt_leadsTo (symbols : Symbols) (idt : InterruptTable)
    (vector : Byte) :
    LeadsTo symbols (kernInitIdt symbols idt) vector (handlerOf vector) := by
  rw [← lastHandler_kernInit]
  exact kernInitIdt_lastHandler symbols idt vector

end MagicalOs.Kernel.InterruptTable
