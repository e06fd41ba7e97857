import MagicalOs.Library.StackMachine

/-!
# Entry code of a kernel

The instructions of which interrupt handlers are made.  Routines of a compiler
are only known by their calling convention, so a handler is a relation between
two states of the processor.

A handler which saves all registers around a routine is invisible to the
program it interrupts, on whatever stack and from whatever level it is entered.
-/

namespace MagicalOs.Library.StackCode

open MagicalOs.Library.ByteMemory
open MagicalOs.Library.ByteMemory.Memory
open MagicalOs.Library.StackMachine

/-! ## Code -/

inductive Operand where
  | register (register : Register)
  | memory (address : Nat)

inductive Instruction (Symbol : Type) where
  | pushl (source : Operand)
  | popl (target : Operand)
  | pushal
  | popal
  | movl (source : Operand) (target : Register)
  | movlCr2 (target : Register)
  | call (routine : Symbol)
  | ret
  | iret
  /-- A far jump to another task, up to the return from there. -/
  | ljmp
  /-- A jump to itself. -/
  | loop

/-- What a piece of code does: its end, if it has one. -/
abbrev Routine := Core → Core → Prop

def Operand.value (core : Core) : Operand → Word
  | register source => core.get source
  | memory address => core.memory.load32 address

/-- The registers which `pushal` pushes, in this order. -/
def allRegisters : List Register :=
  [.eax, .ecx, .edx, .ebx, .esp, .ebp, .esi, .edi]

/-- `popal` does not load `esp`. -/
def allTargets : List (Option Register) :=
  [some .edi, some .esi, some .ebp, none, some .ebx, some .edx, some .ecx,
    some .eax]

section Code

variable {Symbol : Type} (routines : Symbol → Routine) (suspend : Routine)

def Instruction.step (core after : Core) : Instruction Symbol → Prop
  | .pushl source => after = core.push (source.value core)
  | .popl (.register register) => after = core.pop register
  | .popl (.memory address) =>
      after =
        { core.drop with memory := core.memory.store32 address core.top }
  | .pushal => after = core.pushAll (allRegisters.map core.get)
  | .popal => after = core.popAll allTargets
  | .movl source target => after = core.set target (source.value core)
  | .movlCr2 target => after = core.set target core.cr2
  | .call routine => routines routine core after
  | .ret => after = { core.drop with eip := core.top }
  | .iret => core.iret = some after
  | .ljmp => suspend core after
  | .loop => False

/-- The instructions are executed one after the other. -/
def Executes : List (Instruction Symbol) → Core → Core → Prop
  | [], core, after => after = core
  | instruction :: code, core, after =>
      ∃ middle, instruction.step routines suspend core middle ∧
        Executes code middle after

/-- A call of the code, which returns to the address behind the call. -/
def Called (code : List (Instruction Symbol)) : Routine :=
  fun core after =>
    ∃ back, Executes routines suspend code (core.push back) after ∧
      after.eip = back

end Code

/-! ## The calling convention -/

/-- The registers which a routine gives back to its caller. -/
def calleeSaved : List Register :=
  [.ebx, .esp, .ebp, .esi, .edi]

/--
What a caller may rely on: a routine owns the words of its arguments and what
lies below them, but not the rest of the stack up to its bottom.
-/
structure Convention (arguments bottom : Nat) (core after : Core) : Prop where
  registers : ∀ register ∈ calleeSaved,
    after.get register = core.get register
  selectors : after.selectors = core.selectors
  nestedTask : after.nestedTask = core.nestedTask
  stack : ∀ address, core.stackTop + 4 * arguments ≤ address →
    address < bottom → after.memory address = core.memory address

section Saving

variable {Symbol : Type} {routines : Symbol → Routine} {suspend : Routine}
  {core entered called returned after : Core} {stack : Core.InnerStack}
  {gate : Core.Gate} {code : List (Instruction Symbol)} {symbol : Symbol}
  {arguments start bottom : Nat} {rest : List Word}

theorem Convention.stackTop
    (convention : Convention arguments bottom called returned) :
    returned.stackTop = called.stackTop :=
  congrArg BitVec.toNat (convention.registers .esp (by decide))

/-- A routine leaves the words behind its arguments on the stack. -/
theorem Convention.stacked
    (convention : Convention arguments bottom called returned)
    (words : List Word)
    (stacked : Stacked called.memory called.stackTop (words ++ rest))
    (own : words.length = arguments)
    (inside : called.stackTop + 4 * (words ++ rest).length ≤ bottom) :
    Stacked returned.memory (returned.stackTop + 4 * arguments) rest := by
  rw [List.length_append, own] at inside
  rcases stacked_append.mp stacked with ⟨_, behind⟩
  rw [own] at behind
  rw [convention.stackTop]
  apply behind.congr
  intro address above below
  apply convention.stack address above
  omega

/-- The state in which the wrapper calls the routine. -/
def wrapped (entered : Core) : Core :=
  entered.pushAll (allRegisters.map entered.get)

end Saving

end MagicalOs.Library.StackCode
