import MagicalOs.Library.ByteMemory
import Mathlib.Data.List.Basic
import Mathlib.Logic.Function.Basic

/-!
# A processor with its stack in memory

The registers of a 32-bit processor, its stack, the entry through an interrupt
gate, and the return from it.

`Stacked` lists the words on the stack.  It is all that a return depends on: it
leads back to the interrupted program if the words which were pushed at the
entry are on top of the stack, whatever was stored below them in between.
-/

namespace MagicalOs.Library.StackMachine

open MagicalOs.Library.ByteMemory
open MagicalOs.Library.ByteMemory.Memory

/-! ## Registers -/

inductive Register where
  | eax
  | ecx
  | edx
  | ebx
  | esp
  | ebp
  | esi
  | edi
  deriving DecidableEq

inductive Segment where
  | es
  | cs
  | ss
  | ds
  | fs
  | gs
  deriving DecidableEq

/-- What a task switch saves. -/
structure Context where
  eip : Word
  eflags : Word
  registers : Register → Word
  selectors : Segment → Half

/-- The registers over the memory which they address. -/
@[ext]
structure Core extends Context where
  cr2 : Word
  memory : Memory

namespace Core

def get (core : Core) (register : Register) : Word :=
  core.registers register

def set (core : Core) (register : Register) (value : Word) : Core :=
  { core with registers := Function.update core.registers register value }

/-- Where the stack starts. -/
def stackTop (core : Core) : Nat :=
  (core.get .esp).toNat

def push (core : Core) (value : Word) : Core :=
  let esp := core.get .esp - 4#32
  { core.set .esp esp with memory := core.memory.store32 esp.toNat value }

/-- The word on top of the stack. -/
def top (core : Core) : Word :=
  core.memory.load32 core.stackTop

def drop (core : Core) : Core :=
  core.set .esp (core.get .esp + 4#32)

def pop (core : Core) (register : Register) : Core :=
  core.drop.set register core.top

def pushAll (core : Core) (values : List Word) : Core :=
  values.foldl push core

/-- Words without a register are dropped. -/
def popAll (core : Core) (targets : List (Option Register)) : Core :=
  targets.foldl
    (fun core target =>
      match target with
      | some register => core.pop register
      | none => core.drop)
    core

/-! ## Interrupts -/

/-- The privilege level in a selector. -/
def level (selector : Half) : Nat :=
  selector.toNat % 4

/-- The frame of an interrupt is put on another stack from an outer level. -/
def isOuter (core : Core) : Prop :=
  level (core.selectors .cs) ≠ 0

instance (core : Core) : Decidable core.isOuter :=
  inferInstanceAs (Decidable (_ ≠ _))

/-- `IF`, `TF`, `NT`, `RF` and `VM` are cleared at the entry. -/
def entryFlags (eflags : Word) : Word :=
  eflags &&& ~~~0x00034300#32

/-- The code segment and the offset of an interrupt gate. -/
structure Gate where
  selector : Half
  offset : Word

/-- The stack of level 0, as the task state segment has it. -/
structure InnerStack where
  ss0 : Half
  esp0 : Word

/-- The frame which an interrupt pushes, from the top of the stack. -/
def frame (core : Core) : List Word :=
  core.eip :: (core.selectors .cs).setWidth 32 :: core.eflags ::
    if core.isOuter then
      [core.get .esp, (core.selectors .ss).setWidth 32]
    else
      []

def onInnerStack (stack : InnerStack) (core : Core) : Core :=
  if core.isOuter then
    { core.set .esp stack.esp0 with
      selectors := Function.update core.selectors .ss stack.ss0 }
  else
    core

/-- The processor takes an interrupt through a gate to level 0. -/
def interrupt (stack : InnerStack) (gate : Gate) (core : Core) : Core :=
  let framed := (core.onInnerStack stack).pushAll core.frame.reverse
  { framed with
    eip := gate.offset
    eflags := entryFlags core.eflags
    selectors := Function.update framed.selectors .cs gate.selector }

/-- `NT`: a return would switch tasks. -/
def nestedTask (core : Core) : Bool :=
  core.eflags.getLsbD 14

/-- `VM` in an image of the flags. -/
def virtual (eflags : Word) : Bool :=
  eflags.getLsbD 17

/--
`iret` to the same level or to an outer one; other returns are not described.
-/
def iret (core : Core) : Option Core :=
  let eip := core.top
  let cs : Half := core.drop.top.setWidth 16
  let eflags := core.drop.drop.top
  let rest := core.drop.drop.drop
  let returned : Core :=
    { rest with
      eip := eip
      eflags := eflags
      selectors := Function.update rest.selectors .cs cs }
  if core.nestedTask ∨ virtual eflags then
    none
  else if level cs = level (core.selectors .cs) then
    some returned
  else if level (core.selectors .cs) < level cs then
    some
      { returned.set .esp rest.top with
        selectors :=
          Function.update returned.selectors .ss
            (rest.drop.top.setWidth 16) }
  else
    none

end Core

/-! ## The words on the stack -/

/-- These words lie in memory from an address on. -/
def Stacked (memory : Memory) (base : Nat) : List Word → Prop
  | [] => True
  | word :: words =>
      memory.load32 base = word ∧ Stacked memory (base + 4) words

section Stacked

variable {memory other : Memory} {base : Nat} {word : Word}
  {words rest : List Word}

theorem Stacked.congr (stacked : Stacked memory base words)
    (agree : AgreeOn other memory base (4 * words.length)) :
    Stacked other base words := by
  induction words generalizing base with
  | nil => trivial
  | cons word words induction =>
      rw [List.length_cons] at agree
      rcases stacked with ⟨first, later⟩
      constructor
      · rw [(agree.sub base 4 (by omega) (by omega)).load32]
        exact first
      · apply induction later
        exact agree.sub _ _ (by omega) (by omega)

theorem stacked_append :
    Stacked memory base (words ++ rest) ↔
      Stacked memory base words ∧
        Stacked memory (base + 4 * words.length) rest := by
  induction words generalizing base with
  | nil => simp [Stacked]
  | cons word words induction =>
      have position :
          base + 4 + 4 * words.length = base + 4 * (words.length + 1) := by
        omega
      rw [List.cons_append, Stacked, induction, Stacked, List.length_cons,
        position, and_assoc]

end Stacked

namespace Core

section Stack

variable {core : Core} {value word : Word} {values words rest : List Word}
  {register : Register} {targets : List (Option Register)}

@[simp]
theorem get_set_self : (core.set register value).get register = value :=
  Function.update_self _ _ _

theorem stackTop_drop (small : core.stackTop + 4 < 2 ^ 32) :
    core.drop.stackTop = core.stackTop + 4 := by
  have esp : core.drop.get .esp = core.get .esp + 4#32 := get_set_self
  have small : (core.get .esp).toNat + 4 < 2 ^ 32 := small
  rw [stackTop, esp, BitVec.toNat_add_of_lt small]
  rfl

theorem top_drop (small : core.stackTop + 4 < 2 ^ 32) :
    core.drop.top = core.memory.load32 (core.stackTop + 4) := by
  rw [top, stackTop_drop small]
  rfl

/-- Dropping words and loading the pointer only loads the pointer. -/
theorem update_drops (core : Core) (esp : Word) :
    Function.update core.drop.drop.drop.registers .esp esp =
      Function.update core.registers .esp esp := by
  have once (core : Core) : Function.update core.drop.registers .esp esp =
      Function.update core.registers .esp esp :=
    Function.update_idem _ _ _
  rw [once, once, once]

end Stack

/-! ## Interrupts and returns -/

/-- The end of the frame. -/
def frameEnd (stack : InnerStack) (core : Core) : Nat :=
  (core.onInnerStack stack).stackTop

/-- The state in which a handler is entered. -/
structure Entered (stack : InnerStack) (gate : Gate) (core entered : Core) :
    Prop where
  stackTop : entered.stackTop + 4 * core.frame.length = core.frameEnd stack
  stacked : Stacked entered.memory entered.stackTop core.frame
  registers : ∀ register, register ≠ .esp →
    entered.get register = core.get register
  cs : entered.selectors .cs = gate.selector
  others : ∀ segment, segment ≠ .cs → (core.isOuter → segment ≠ .ss) →
    entered.selectors segment = core.selectors segment
  nestedTask : entered.nestedTask = false
  above : ∀ address, core.frameEnd stack ≤ address →
    entered.memory address = core.memory address

section Interrupts

variable {core entered last : Core} {stack : InnerStack} {gate : Gate}

theorem frameEnd_lt : core.frameEnd stack < 2 ^ 32 :=
  BitVec.isLt _

theorem frameEnd_of_inner (inner : ¬core.isOuter) :
    core.frameEnd stack = core.stackTop := by
  rw [frameEnd, onInnerStack, if_neg inner]

/-- The state in which a handler returns from an interrupt. -/
structure Returning (stack : InnerStack) (gate : Gate) (core last : Core) :
    Prop where
  stackTop : last.stackTop + 4 * core.frame.length = core.frameEnd stack
  stacked : Stacked last.memory last.stackTop core.frame
  cs : last.selectors .cs = gate.selector
  others : ∀ segment, segment ≠ .cs → (core.isOuter → segment ≠ .ss) →
    last.selectors segment = core.selectors segment
  nestedTask : last.nestedTask = false

/-- Behind the frame, `iret` finds the interrupted program. -/
theorem Returning.iret (returning : Returning stack gate core last)
    (inner : level gate.selector = 0) (plain : virtual core.eflags = false) :
    last.iret =
      some
        { core with
          registers := Function.update last.registers .esp (core.get .esp)
          cr2 := last.cr2
          memory := last.memory } := by
  have ending : core.frameEnd stack < 2 ^ 32 := frameEnd_lt
  have top := returning.stackTop
  have words := returning.stacked
  have same (selector : Half) :
      (selector.setWidth 32).setWidth 16 = selector := by
    simp
  rw [frame] at top words
  simp only [List.length_cons, Stacked] at top words
  rcases words with ⟨first, second, third, others⟩
  have above : last.drop.stackTop = last.stackTop + 4 :=
    stackTop_drop (by omega)
  have behind : last.drop.drop.stackTop = last.drop.stackTop + 4 :=
    stackTop_drop (by omega)
  have eip : last.top = core.eip := first
  have cs : last.drop.top = (core.selectors .cs).setWidth 32 :=
    (top_drop (by omega)).trans second
  have eflags : last.drop.drop.top = core.eflags := by
    rw [top_drop (by omega), above]
    exact third
  have ordinary : ¬(last.nestedTask = true ∨ virtual core.eflags = true) := by
    rw [returning.nestedTask, plain]
    decide
  simp only [Core.iret, eip, cs, eflags, same, if_neg ordinary, returning.cs,
    inner]
  by_cases outer : core.isOuter
  · rw [if_pos outer] at others top
    rcases others with ⟨fourth, fifth, _⟩
    simp only [List.length_cons, List.length_nil] at top
    have rest : last.drop.drop.drop.stackTop = last.drop.drop.stackTop + 4 :=
      stackTop_drop (by omega)
    have esp : last.drop.drop.drop.top = core.get .esp := by
      rw [top_drop (by omega), behind, above]
      exact fourth
    have ss :
        last.drop.drop.drop.drop.top = (core.selectors .ss).setWidth 32 := by
      rw [top_drop (by omega), rest, behind, above]
      exact fifth
    have notInner : level (core.selectors .cs) ≠ 0 := outer
    rw [if_neg notInner, if_pos (Nat.pos_of_ne_zero notInner), esp, ss, same]
    apply congrArg some
    apply Core.ext
    · rfl
    · rfl
    · exact update_drops last _
    · funext segment
      change Function.update (Function.update last.selectors .cs _) .ss _
        segment = _
      by_cases isSs : segment = .ss
      · rw [isSs, Function.update_self]
      · rw [Function.update_of_ne isSs]
        by_cases isCs : segment = .cs
        · rw [isCs, Function.update_self]
        · rw [Function.update_of_ne isCs]
          exact returning.others segment isCs fun _ => isSs
    · rfl
    · rfl
  · rw [if_neg outer] at top
    simp only [List.length_nil] at top
    have rest : last.drop.drop.drop.stackTop = last.drop.drop.stackTop + 4 :=
      stackTop_drop (by omega)
    have isInner : level (core.selectors .cs) = 0 := not_not.mp outer
    have bottom : core.frameEnd stack = core.stackTop :=
      frameEnd_of_inner outer
    rw [if_pos isInner]
    apply congrArg some
    apply Core.ext
    · rfl
    · rfl
    · have esp : last.drop.drop.drop.get .esp = core.get .esp := by
        apply BitVec.eq_of_toNat_eq
        change last.drop.drop.drop.stackTop = core.stackTop
        omega
      have own :
          Function.update last.drop.drop.drop.registers .esp
              (last.drop.drop.drop.get .esp) =
            last.drop.drop.drop.registers :=
        Function.update_eq_self _ _
      rw [← esp]
      exact own.symm.trans (update_drops last _)
    · funext segment
      change Function.update last.selectors .cs _ segment = _
      by_cases isCs : segment = .cs
      · rw [isCs, Function.update_self]
      · rw [Function.update_of_ne isCs]
        exact returning.others segment isCs fun isOuter => absurd isOuter outer
    · rfl
    · rfl

end Interrupts

end Core

end MagicalOs.Library.StackMachine
