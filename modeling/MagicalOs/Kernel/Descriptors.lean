import MagicalOs.Library.BitField
import MagicalOs.Library.ByteMemory
import Mathlib.Logic.Function.Basic

/-!
# Segment descriptors and hardware task switches

`cpu.c` installs task state segments in the global descriptor table, and every
`context_switch` routine is a far jump through one of its entries.  The table
is indexed by natural numbers: `init_gdt` does not check its index, so an index
from `GDT_SIZE` on stands for the memory behind the table, which a selector
cannot reach because of the limit in `gdt_descr`.

The processor keeps the selector of the running task state segment together
with the base address which the selector had when it was loaded.
-/

namespace MagicalOs.Kernel.Descriptors

open MagicalOs.Library.BitField
open MagicalOs.Library.ByteMemory

/-- `GDT_SIZE` of `asm/cpu.h`. -/
def gdtSize : Nat := 8

/-- `sizeof(struct tss)`. -/
def sizeofTss : Nat := 104

/-- `struct segment_descriptor`. -/
abbrev SegmentDescriptor := BitVec 64

abbrev DescriptorTable := Nat → SegmentDescriptor

namespace SegmentDescriptor

def limit0 (entry : SegmentDescriptor) : BitVec 16 := field entry 0 16
def base0 (entry : SegmentDescriptor) : BitVec 16 := field entry 16 16
def base1 (entry : SegmentDescriptor) : BitVec 8 := field entry 32 8
def type (entry : SegmentDescriptor) : BitVec 4 := field entry 40 4
def s (entry : SegmentDescriptor) : BitVec 1 := field entry 44 1
def dpl (entry : SegmentDescriptor) : BitVec 2 := field entry 45 2
def p (entry : SegmentDescriptor) : BitVec 1 := field entry 47 1
def limit1 (entry : SegmentDescriptor) : BitVec 4 := field entry 48 4
def g (entry : SegmentDescriptor) : BitVec 1 := field entry 55 1
def base2 (entry : SegmentDescriptor) : BitVec 8 := field entry 56 8

/-- The base address a descriptor denotes. -/
def base (entry : SegmentDescriptor) : Word :=
  base2 entry ++ (base1 entry ++ base0 entry)

/-- The limit a descriptor denotes, in the unit of its `g` bit. -/
def limit (entry : SegmentDescriptor) : BitVec 20 :=
  limit1 entry ++ limit0 entry

/-- A present, available 32-bit task state segment. -/
def IsAvailableTss (entry : SegmentDescriptor) : Prop :=
  s entry = 0#1 ∧ type entry = 9#4 ∧ p entry = 1#1

instance (entry : SegmentDescriptor) : Decidable (IsAvailableTss entry) :=
  inferInstanceAs (Decidable (_ ∧ _ ∧ _))

/-- The assignments of `init_gdt` to one entry, in the source's order. -/
def install (entry : SegmentDescriptor) (base limit : Word)
    (dpl : Byte) : SegmentDescriptor :=
  let entry := setField entry 0 16 ((limit &&& 0x0000ffff#32).setWidth 16)
  let entry :=
    setField entry 48 4 (((limit &&& 0x000f0000#32) >>> 16).setWidth 4)
  let entry := setField entry 16 16 ((base &&& 0x0000ffff#32).setWidth 16)
  let entry :=
    setField entry 32 8 (((base &&& 0x00ff0000#32) >>> 16).setWidth 8)
  let entry :=
    setField entry 56 8 (((base &&& 0xff000000#32) >>> 24).setWidth 8)
  let entry := setField entry 45 2 (dpl.setWidth 2)
  let entry := setField entry 40 4 9#4
  setField entry 47 1 1#1

end SegmentDescriptor

open SegmentDescriptor

/-- `init_gdt` of `cpu.c`. -/
def initGdt (gdt : DescriptorTable) (idx : Nat) (base limit : Word)
    (dpl : Byte) : DescriptorTable :=
  Function.update gdt idx ((gdt idx).install base limit dpl)

/-- The static table of `sys.S`. -/
def staticGdt : DescriptorTable := fun idx =>
  match idx with
  | 1 => 0x00cf9a000000ffff#64
  | 2 => 0x00cf92000000ffff#64
  | 6 => 0x00cffa000000ffff#64
  | 7 => 0x00cff2000000ffff#64
  | _ => 0#64

/-! ## The processor -/

/-- The task register, and whether the last far jump failed to switch. -/
structure Cpu where
  taskRegister : Half
  runningTss : Word
  switchFailed : Bool

/-- Mark the task state segment at `idx` available (9) or busy (11). -/
def setTssType (gdt : DescriptorTable) (idx : Nat) (type : BitVec 4) :
    DescriptorTable :=
  Function.update gdt idx (setField (gdt idx) 40 4 type)

/--
`ljmp $selector, $0`: a hardware task switch when the selector denotes an
available task state segment inside the limit of the table, and otherwise a
protection fault or a jump into another segment, which switches no task.
-/
def ljmp (gdt : DescriptorTable) (cpu : Cpu) (selector : Half) :
    DescriptorTable × Cpu :=
  let idx := selector.toNat / 8
  if idx < gdtSize ∧ (gdt idx).IsAvailableTss then
    let released := setTssType gdt (cpu.taskRegister.toNat / 8) 9#4
    (setTssType released idx 11#4,
      { taskRegister := selector
        runningTss := (gdt idx).base
        switchFailed := false })
  else
    (gdt, { cpu with switchFailed := true })

/-- `ltr`: load the task register and mark its segment busy. -/
def ltr (gdt : DescriptorTable) (selector : Half) : DescriptorTable × Cpu :=
  let idx := selector.toNat / 8
  (setTssType gdt idx 11#4,
    { taskRegister := selector
      runningTss := (gdt idx).base
      switchFailed := false })

/-! ## What an installed entry denotes -/

private theorem low_mask (word : Word) :
    (word &&& 0x0000ffff#32).setWidth 16 = field word 0 16 := by
  have shifted :=
    setWidth_mask_ushiftRight word 0x0000ffff#32 0 16 (by decide) (by decide)
  rwa [BitVec.ushiftRight_zero] at shifted

private theorem middle_mask (word : Word) :
    ((word &&& 0x00ff0000#32) >>> 16).setWidth 8 = field word 16 8 :=
  setWidth_mask_ushiftRight word 0x00ff0000#32 16 8 (by decide) (by decide)

private theorem high_mask (word : Word) :
    ((word &&& 0xff000000#32) >>> 24).setWidth 8 = field word 24 8 :=
  setWidth_mask_ushiftRight word 0xff000000#32 24 8 (by decide) (by decide)

private theorem limit_mask (word : Word) :
    ((word &&& 0x000f0000#32) >>> 16).setWidth 4 = field word 16 4 :=
  setWidth_mask_ushiftRight word 0x000f0000#32 16 4 (by decide) (by decide)

@[simp]
theorem limit0_install (entry : SegmentDescriptor) (base limit : Word)
    (dpl : Byte) :
    (install entry base limit dpl).limit0 = field limit 0 16 := by
  simp only [limit0, install, low_mask]
  simp [field_setField_of_disjoint]

theorem limit1_install (entry : SegmentDescriptor) (base limit : Word)
    (dpl : Byte) :
    (install entry base limit dpl).limit1 = field limit 16 4 := by
  simp only [limit1, install, limit_mask]
  simp [field_setField_of_disjoint]

/-- The entry denotes the low 20 bits of the limit. -/
theorem limit_install (entry : SegmentDescriptor) (base limit : Word)
    (dpl : Byte) :
    (install entry base limit dpl).limit = field limit 0 20 := by
  rw [SegmentDescriptor.limit, limit0_install, limit1_install]
  exact field_append limit 0 16 4

theorem base0_install (entry : SegmentDescriptor) (base limit : Word)
    (dpl : Byte) :
    (install entry base limit dpl).base0 = field base 0 16 := by
  simp only [base0, install, low_mask]
  simp [field_setField_of_disjoint]

theorem base1_install (entry : SegmentDescriptor) (base limit : Word)
    (dpl : Byte) :
    (install entry base limit dpl).base1 = field base 16 8 := by
  simp only [base1, install, middle_mask]
  simp [field_setField_of_disjoint]

theorem base2_install (entry : SegmentDescriptor) (base limit : Word)
    (dpl : Byte) :
    (install entry base limit dpl).base2 = field base 24 8 := by
  simp only [base2, install, high_mask]
  simp [field_setField_of_disjoint]

/-- The entry denotes the base address `init_gdt` was given. -/
@[simp]
theorem base_install (entry : SegmentDescriptor) (base limit : Word)
    (dpl : Byte) :
    (install entry base limit dpl).base = base := by
  have low := field_append base 0 16 8
  have whole := field_append base 0 24 8
  rw [SegmentDescriptor.base, base0_install, base1_install, base2_install,
    low, whole]
  simp [field]

/-- The `s` bit is the one the entry had before. -/
@[simp]
theorem s_install (entry : SegmentDescriptor) (base limit : Word)
    (dpl : Byte) :
    (entry.install base limit dpl).s = entry.s := by
  simp [s, install, field_setField_of_disjoint]

/-- So is the granularity. -/
theorem g_install (entry : SegmentDescriptor) (base limit : Word)
    (dpl : Byte) :
    (entry.install base limit dpl).g = entry.g := by
  simp [g, install, field_setField_of_disjoint]

theorem dpl_install (entry : SegmentDescriptor) (base limit : Word)
    (privilege : Byte) :
    (entry.install base limit privilege).dpl = privilege.setWidth 2 := by
  simp [dpl, install, field_setField_of_disjoint]

@[simp]
theorem type_install (entry : SegmentDescriptor) (base limit : Word)
    (dpl : Byte) :
    (entry.install base limit dpl).type = 9#4 := by
  simp [type, install, field_setField_of_disjoint]

@[simp]
theorem p_install (entry : SegmentDescriptor) (base limit : Word)
    (dpl : Byte) :
    (entry.install base limit dpl).p = 1#1 := by
  simp [p, install]

end MagicalOs.Kernel.Descriptors
