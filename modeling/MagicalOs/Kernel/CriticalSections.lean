import MagicalOs.Library.BitField
import MagicalOs.Library.ByteMemory
import MagicalOs.Library.Nesting
import Mathlib.Logic.Function.Basic

/-!
# Critical sections

`kern_lock` saves the interrupt flag in a variable of its caller and clears it;
`kern_unlock` sets the flag again if the variable says that it was set.  Sections
are nested, as in `sched_update_wakeupq` and `get_keydata`, and each one has a
variable of its own.  Whatever the depth, the flag is clear inside of the
outermost section and is restored behind it.
-/

namespace MagicalOs.Kernel.CriticalSections

open MagicalOs.Library.BitField
open MagicalOs.Library.ByteMemory
open MagicalOs.Library.Nesting

/-- The flags of the processor, and the variables `if_bit`. -/
structure Cpu (Variable : Type*) where
  eflags : Word
  ifBit : Variable → Byte

/-- `X86_EFLAGS_IF`. -/
def x86EflagsIf : Word := 0x00000200#32

/-- Maskable interrupts are enabled. -/
def interruptFlag (eflags : Word) : Bool := field eflags 9 1 = 1#1

section Sections

variable {Variable : Type*}

def cli (cpu : Cpu Variable) : Cpu Variable :=
  { cpu with eflags := setField cpu.eflags 9 1 0#1 }

def sti (cpu : Cpu Variable) : Cpu Variable :=
  { cpu with eflags := setField cpu.eflags 9 1 1#1 }

variable [DecidableEq Variable]

/-- `kern_lock`, with the address of a variable. -/
def kernLock (ifBit : Variable) (cpu : Cpu Variable) : Cpu Variable :=
  let saved := if cpu.eflags &&& x86EflagsIf ≠ 0#32 then 1#8 else 0#8
  let cpu := { cpu with ifBit := Function.update cpu.ifBit ifBit saved }
  if cpu.ifBit ifBit ≠ 0#8 then cli cpu else cpu

/-- `kern_unlock`. -/
def kernUnlock (ifBit : Variable) (cpu : Cpu Variable) : Cpu Variable :=
  if cpu.ifBit ifBit ≠ 0#8 then sti cpu else cpu

/-- The beginning or the end of a critical section. -/
def call : Mark Variable → Cpu Variable → Cpu Variable
  | .enter ifBit, cpu => kernLock ifBit cpu
  | .leave ifBit, cpu => kernUnlock ifBit cpu

def runCalls (calls : List (Mark Variable)) (cpu : Cpu Variable) :
    Cpu Variable :=
  calls.foldl (fun cpu mark => call mark cpu) cpu

/-! ## One section -/

/-- The flags with interrupts disabled. -/
def masked (eflags : Word) : Word := setField eflags 9 1 0#1

theorem interruptFlag_masked (eflags : Word) :
    interruptFlag (masked eflags) = false := by
  rw [interruptFlag, masked, field_setField_self _ _ _ _ (by decide)]
  rfl

@[simp]
theorem masked_masked (eflags : Word) :
    masked (masked eflags) = masked eflags :=
  setField_setField eflags 9 1 0#1 0#1

theorem interruptFlag_eq_false_iff (eflags : Word) :
    interruptFlag eflags = false ↔ masked eflags = eflags := by
  constructor
  · intro disabled
    rw [interruptFlag, decide_eq_false_iff_not] at disabled
    have zero : field eflags 9 1 = 0#1 := by
      rcases BitVec.eq_zero_or_eq_one (field eflags 9 1) with zero | one
      · exact zero
      · exact absurd one disabled
    rw [masked, ← zero, setField_field_self]
  · intro same
    rw [← same]
    exact interruptFlag_masked eflags

/-- Setting the flag undoes that it has been cleared. -/
theorem setField_masked {eflags : Word} (enabled : interruptFlag eflags) :
    setField (masked eflags) 9 1 1#1 = eflags := by
  have one : field eflags 9 1 = 1#1 := of_decide_eq_true enabled
  rw [masked, setField_setField, ← one, setField_field_self]

/-- The test of `kern_lock` reads the interrupt flag. -/
theorem test_iff (eflags : Word) :
    eflags &&& x86EflagsIf ≠ 0#32 ↔ interruptFlag eflags = true := by
  have mask : x86EflagsIf = BitVec.twoPow 32 9 := by decide
  rw [mask, interruptFlag, decide_eq_true_iff]
  exact and_twoPow_ne_zero_iff eflags (by decide)

/-- What is saved. -/
def savedBit (eflags : Word) : Byte := if interruptFlag eflags then 1#8 else 0#8

/-- `kern_lock` disables interrupts, and changes no other variable. -/
theorem kernLock_spec (ifBit : Variable) (cpu : Cpu Variable) :
    kernLock ifBit cpu =
      { eflags := masked cpu.eflags
        ifBit := Function.update cpu.ifBit ifBit (savedBit cpu.eflags) } := by
  rw [kernLock]
  by_cases enabled : interruptFlag cpu.eflags = true
  · have tested := (test_iff cpu.eflags).mpr enabled
    simp only [if_pos tested, Function.update_self, savedBit, if_pos enabled]
    rfl
  · have tested := mt (test_iff cpu.eflags).mp enabled
    have same := (interruptFlag_eq_false_iff cpu.eflags).mp
      (eq_false_of_ne_true enabled)
    simp only [if_neg tested, Function.update_self, savedBit, if_neg enabled,
      same]
    rfl

omit [DecidableEq Variable] in
/-- `kern_unlock` restores the flags that were masked. -/
theorem kernUnlock_spec {ifBit : Variable} {cpu : Cpu Variable}
    {eflags : Word} (inside : cpu.eflags = masked eflags)
    (saved : cpu.ifBit ifBit = savedBit eflags) :
    kernUnlock ifBit cpu = { cpu with eflags := eflags } := by
  rw [kernUnlock, saved, savedBit]
  by_cases enabled : interruptFlag eflags = true
  · rw [if_pos enabled, if_pos (by decide), sti, inside,
      setField_masked enabled]
  · have same := (interruptFlag_eq_false_iff eflags).mp
      (eq_false_of_ne_true enabled)
    rw [if_neg enabled, if_neg (by decide), ← same, ← inside]

/-! ## Nested sections -/

theorem runCalls_append (left right : List (Mark Variable))
    (cpu : Cpu Variable) :
    runCalls (left ++ right) cpu = runCalls right (runCalls left cpu) :=
  List.foldl_append

/-- The flags at a given depth. -/
def flagsAt (depth : Int) (eflags : Word) : Word :=
  if depth = 0 then eflags else masked eflags

/-- Inside of a sequence, the flags depend on the depth, and the variables of
the sections around it are left alone. -/
theorem runCalls_spec {outer : List Variable} {calls : List (Mark Variable)}
    (nested : Nested outer calls) {before : List (Mark Variable)}
    (isPrefix : before <+: calls) (cpu : Cpu Variable) :
    (runCalls before cpu).eflags = flagsAt (depth before) cpu.eflags ∧
      ∀ ifBit ∈ outer, (runCalls before cpu).ifBit ifBit = cpu.ifBit ifBit := by
  induction nested generalizing before cpu with
  | nil =>
      rw [List.prefix_nil.mp isPrefix]
      exact ⟨rfl, fun _ _ => rfl⟩
  | @pair outer name inner rest fresh inside behind innerSpec restSpec =>
      have kept : ∀ ifBit ∈ outer,
          (kernLock name cpu).ifBit ifBit = cpu.ifBit ifBit := by
        intro ifBit member
        have different : ifBit ≠ name := by
          rintro rfl
          exact fresh member
        rw [kernLock_spec]
        exact Function.update_of_ne different _ _
      have locked : (kernLock name cpu).eflags = masked cpu.eflags := by
        rw [kernLock_spec]
      rcases prefix_pair_cases isPrefix with
        rfl | ⟨part, inInner, rfl⟩ | ⟨part, inRest, rfl⟩
      · exact ⟨rfl, fun _ _ => rfl⟩
      · rcases innerSpec inInner (kernLock name cpu) with ⟨flags, others⟩
        have positive : depth (.enter name :: part) ≠ 0 := by
          have nonneg := inside.depth_nonneg inInner
          rw [depth]
          omega
        constructor
        · change (runCalls part (kernLock name cpu)).eflags = _
          rw [flags, flagsAt, flagsAt, if_neg positive, locked, masked_masked,
            ite_self]
        · intro ifBit member
          change (runCalls part (kernLock name cpu)).ifBit ifBit = _
          rw [others ifBit (List.mem_cons_of_mem name member),
            kept ifBit member]
      · rcases innerSpec (List.prefix_refl inner) (kernLock name cpu) with
          ⟨flags, others⟩
        rw [inside.depth_eq, flagsAt, if_pos rfl, locked] at flags
        have saved : (runCalls inner (kernLock name cpu)).ifBit name =
            savedBit cpu.eflags := by
          rw [others name (List.mem_cons_self ..), kernLock_spec]
          exact Function.update_self ..
        have unlocked := kernUnlock_spec flags saved
        have sum : depth (.enter name :: (inner ++ .leave name :: part)) =
            depth part := by
          rw [depth, depth_append, depth, inside.depth_eq]
          omega
        have runs : runCalls (.enter name :: (inner ++ .leave name :: part))
            cpu = runCalls part
              { runCalls inner (kernLock name cpu) with
                eflags := cpu.eflags } := by
          change runCalls (inner ++ .leave name :: part) (kernLock name cpu) = _
          rw [runCalls_append, ← unlocked]
          rfl
        rw [sum, runs]
        rcases restSpec inRest
          { runCalls inner (kernLock name cpu) with eflags := cpu.eflags } with
          ⟨flagsBehind, othersBehind⟩
        refine ⟨flagsBehind, ?_⟩
        intro ifBit member
        rw [othersBehind ifBit member]
        change (runCalls inner (kernLock name cpu)).ifBit ifBit = _
        rw [others ifBit (List.mem_cons_of_mem name member), kept ifBit member]

/-- Interrupts are disabled wherever a section is open, and where none is, the
flags are what they were. -/
theorem nested_sections_mask {calls : List (Mark Variable)}
    (nested : Nested [] calls) {before after : List (Mark Variable)}
    (split : calls = before ++ after) (cpu : Cpu Variable) :
    0 ≤ depth before ∧
      (0 < depth before →
        interruptFlag (runCalls before cpu).eflags = false) ∧
      (depth before = 0 → (runCalls before cpu).eflags = cpu.eflags) := by
  have isPrefix : before <+: calls := ⟨after, split.symm⟩
  have flags := (runCalls_spec nested isPrefix cpu).1
  refine ⟨nested.depth_nonneg isPrefix, ?_, ?_⟩
  · intro isInside
    rw [flags, flagsAt, if_neg (Int.ne_of_gt isInside)]
    exact interruptFlag_masked cpu.eflags
  · intro outside
    rw [flags, flagsAt, if_pos outside]

/-- An inner section has ended, and the outer one has not. -/
theorem nested_sections_mask_inner :
    let cpu : Cpu Bool := { eflags := 0x202#32, ifBit := fun _ => 0#8 }
    let before : List (Mark Bool) := [.enter false, .enter true, .leave true]
    0 ≤ depth before ∧
      (0 < depth before →
        interruptFlag (runCalls before cpu).eflags = false) ∧
      (depth before = 0 → (runCalls before cpu).eflags = cpu.eflags) := by
  intro cpu before
  have inner : Nested [false] [.enter true, .leave true] :=
    .pair (by decide) .nil .nil
  have nested : Nested [] (before ++ [.leave false]) :=
    .pair (by decide) inner .nil
  exact nested_sections_mask nested rfl cpu

end Sections

end MagicalOs.Kernel.CriticalSections
