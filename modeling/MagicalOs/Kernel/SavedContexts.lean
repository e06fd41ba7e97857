import MagicalOs.Kernel.TaskStructure
import MagicalOs.Library.StackMachine

/-!
# Contexts in task state segments

A task switch stores the registers of the processor to the segment of the task
which it leaves, and loads them from the segment of the task which it enters.
Sixteen registers have a slot of four bytes each, one behind the other; a
selector takes the lower half of its slot.
-/

namespace MagicalOs.Kernel.SavedContexts

open MagicalOs.Library.ByteMemory
open MagicalOs.Library.ByteMemory.Memory
open MagicalOs.Library.StackMachine

/-- The fields of `struct tss` which a task switch stores. -/
inductive Slot where
  | eip
  | eflags
  | register (register : Register)
  | selector (segment : Segment)
  deriving DecidableEq

/-- The offsets in `struct tss`. -/
def offset : Slot → Nat
  | .eip => 32
  | .eflags => 36
  | .register .eax => 40
  | .register .ecx => 44
  | .register .edx => 48
  | .register .ebx => 52
  | .register .esp => 56
  | .register .ebp => 60
  | .register .esi => 64
  | .register .edi => 68
  | .selector .es => 72
  | .selector .cs => 76
  | .selector .ss => 80
  | .selector .ds => 84
  | .selector .fs => 88
  | .selector .gs => 92

def slots : List Slot :=
  [.eip, .eflags, .register .eax, .register .ecx, .register .edx,
    .register .ebx, .register .esp, .register .ebp, .register .esi,
    .register .edi, .selector .es, .selector .cs, .selector .ss,
    .selector .ds, .selector .fs, .selector .gs]

def storeSlot (base : Nat) (context : Context) (mem : Memory) (slot : Slot) :
    Memory :=
  match slot with
  | .eip => mem.store32 (base + offset slot) context.eip
  | .eflags => mem.store32 (base + offset slot) context.eflags
  | .register register =>
      mem.store32 (base + offset slot) (context.registers register)
  | .selector segment =>
      mem.store16 (base + offset slot) (context.selectors segment)

/-- What a task switch stores to the segment which it leaves. -/
def saveContext (mem : Memory) (base : Nat) (context : Context) : Memory :=
  slots.foldl (storeSlot base context) mem

/-- What it loads from the segment which it enters. -/
def loadContext (mem : Memory) (base : Nat) : Context where
  eip := mem.load32 (base + offset .eip)
  eflags := mem.load32 (base + offset .eflags)
  registers register := mem.load32 (base + offset (.register register))
  selectors segment := mem.load16 (base + offset (.selector segment))

section Slots

variable {mem after : Memory} {base : Nat} {context : Context}
  {slot other : Slot} {list : List Slot}

theorem mem_slots (slot : Slot) : slot ∈ slots := by
  cases slot with
  | eip => decide
  | eflags => decide
  | register register => cases register with | _ => decide
  | selector segment => cases segment with | _ => decide

/-- The slots lie behind each other, from 32 to 96. -/
theorem offset_bounds (slot : Slot) : 32 ≤ offset slot ∧ offset slot < 96 ∧
    offset slot % 4 = 0 := by
  cases slot with
  | eip => decide
  | eflags => decide
  | register register => cases register with | _ => decide
  | selector segment => cases segment with | _ => decide

theorem offset_injective : Function.Injective offset := by
  have position : ∀ slot, slots.idxOf slot * 4 + 32 = offset slot := by
    intro slot
    cases slot with
    | eip => rfl
    | eflags => rfl
    | register register => cases register with | _ => rfl
    | selector segment => cases segment with | _ => rfl
  intro first second same
  rw [← position, ← position] at same
  have index : slots.idxOf first = slots.idxOf second := by omega
  exact (List.idxOf_inj (mem_slots first)).mp index

theorem storeSlot_agreeOutside (mem : Memory) (base : Nat)
    (context : Context) (slot : Slot) :
    AgreeOutside (storeSlot base context mem slot) mem
      (base + offset slot) 4 := by
  cases slot with
  | eip => exact store32_agreeOutside _ _ _
  | eflags => exact store32_agreeOutside _ _ _
  | register register => exact store32_agreeOutside _ _ _
  | selector segment =>
      exact (store16_agreeOutside _ _ _).mono (Nat.le_refl _) (by omega)

/-- Other slots keep their contents. -/
theorem storeSlot_other (different : other ≠ slot) :
    AgreeOn (storeSlot base context mem slot) mem (base + offset other) 4 := by
  have stored := storeSlot_agreeOutside mem base context slot
  have apart : offset other ≠ offset slot :=
    fun same => different (offset_injective same)
  have first := (offset_bounds other).2.2
  have second := (offset_bounds slot).2.2
  apply stored.agreeOn
  omega

theorem foldl_storeSlot_other (fresh : other ∉ list) :
    AgreeOn (list.foldl (storeSlot base context) mem) mem
      (base + offset other) 4 := by
  induction list generalizing mem with
  | nil => exact fun _ _ _ => rfl
  | cons slot list induction =>
      have different : other ≠ slot := by
        rintro rfl
        exact fresh List.mem_cons_self
      exact (induction (mt (List.mem_cons_of_mem slot) fresh)).trans
        (storeSlot_other different)

/-- Every slot is stored, and not overwritten. -/
theorem foldl_storeSlot_self (member : other ∈ list) (nodup : list.Nodup) :
    ∃ before,
      AgreeOn (list.foldl (storeSlot base context) mem)
        (storeSlot base context before other) (base + offset other) 4 := by
  induction list generalizing mem with
  | nil => cases member
  | cons slot list induction =>
      rcases List.nodup_cons.mp nodup with ⟨fresh, later⟩
      rcases List.mem_cons.mp member with rfl | inRest
      · exact ⟨mem, foldl_storeSlot_other fresh⟩
      · exact induction inRest later

theorem saveContext_slot (mem : Memory) (base : Nat) (context : Context)
    (slot : Slot) :
    ∃ before,
      AgreeOn (saveContext mem base context)
        (storeSlot base context before slot) (base + offset slot) 4 :=
  foldl_storeSlot_self (mem_slots slot) (by decide)

/-- A task switch back loads what was stored. -/
theorem loadContext_saveContext (mem : Memory) (base : Nat)
    (context : Context) :
    loadContext (saveContext mem base context) base = context := by
  have eip : (saveContext mem base context).load32 (base + offset .eip) =
      context.eip := by
    rcases saveContext_slot mem base context .eip with ⟨before, agree⟩
    rw [agree.load32, storeSlot, load32_store32_self]
  have eflags :
      (saveContext mem base context).load32 (base + offset .eflags) =
        context.eflags := by
    rcases saveContext_slot mem base context .eflags with ⟨before, agree⟩
    rw [agree.load32, storeSlot, load32_store32_self]
  have registers : (fun register =>
      (saveContext mem base context).load32
        (base + offset (.register register))) = context.registers := by
    funext register
    rcases saveContext_slot mem base context (.register register) with
      ⟨before, agree⟩
    rw [agree.load32, storeSlot, load32_store32_self]
  have selectors : (fun segment =>
      (saveContext mem base context).load16
        (base + offset (.selector segment))) = context.selectors := by
    funext segment
    rcases saveContext_slot mem base context (.selector segment) with
      ⟨before, agree⟩
    have half := agree.sub (base + offset (.selector segment)) 2
      (Nat.le_refl _) (by omega)
    rw [half.load16, storeSlot, load16_store16_self]
  rw [loadContext, eip, eflags, registers, selectors]

/-- A task switch stores to the slots of the segment only. -/
theorem saveContext_agreeOutside (mem : Memory) (base : Nat)
    (context : Context) :
    AgreeOutside (saveContext mem base context) mem (base + 32) 64 := by
  have folded (list : List Slot) (mem : Memory) :
      AgreeOutside (list.foldl (storeSlot base context) mem) mem
        (base + 32) 64 := by
    induction list generalizing mem with
    | nil => exact fun _ _ => rfl
    | cons slot list induction =>
        have bounds := offset_bounds slot
        have stored := storeSlot_agreeOutside mem base context slot
        exact (induction _).trans (stored.mono (by omega) (by omega))
  exact folded slots mem

/-- The context depends on the slots only. -/
theorem loadContext_congr (agree : AgreeOn after mem (base + 32) 64) :
    loadContext after base = loadContext mem base := by
  have inside (slot : Slot) : AgreeOn after mem (base + offset slot) 4 := by
    have bounds := offset_bounds slot
    exact agree.sub _ 4 (by omega) (by omega)
  have registers : (fun register =>
      after.load32 (base + offset (.register register))) =
      fun register => mem.load32 (base + offset (.register register)) := by
    funext register
    exact (inside (.register register)).load32
  have selectors : (fun segment =>
      after.load16 (base + offset (.selector segment))) =
      fun segment => mem.load16 (base + offset (.selector segment)) := by
    funext segment
    have slot := inside (.selector segment)
    exact (slot.sub _ 2 (Nat.le_refl _) (by omega)).load16
  rw [loadContext, loadContext, (inside .eip).load32, (inside .eflags).load32,
    registers, selectors]

end Slots

end MagicalOs.Kernel.SavedContexts
