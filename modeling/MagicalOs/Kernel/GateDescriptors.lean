import MagicalOs.Kernel.Descriptors

/-!
# Descriptors as the processor reads them

`init_gdt` stores the base, the limit and the privilege of a task state segment
by bit fields, and `intr_set_handler` builds an interrupt gate from two words.
Both scatter an address over bit ranges that are not adjacent.  Decoding an
entry by the layout of the processor gives back what was passed, and the other
entries of the tables are left alone.
-/

namespace MagicalOs.Kernel.GateDescriptors

open MagicalOs.Library.BitField
open MagicalOs.Library.ByteMemory
open MagicalOs.Kernel.Descriptors

/-! ## Interrupt gates -/

/-- The words of `idt`: each of its 256 entries has two. -/
abbrev InterruptTable := Nat → Word

/-- `INTR_NUM_USER128`. -/
def intrNumUser128 : Byte := 0x80#8

/-- The variable `intr_dscr_top_half`. -/
def intrDscrTopHalf (handlerAddr : Word) : Word :=
  (0x00080000#32 &&& 0xffff0000#32) ||| (handlerAddr &&& 0x0000ffff#32)

/-- The variable `intr_dscr_bottom_half`. -/
def intrDscrBottomHalf (intrNum : Byte) (handlerAddr : Word) : Word :=
  let half := (handlerAddr &&& 0xffff0000#32) ||| 0x00008e00#32
  if intrNum = intrNumUser128 then half ||| (3#32 <<< 13) else half

/-- `intr_set_handler`. -/
def intrSetHandler (idt : InterruptTable) (intrNum : Byte)
    (handlerAddr : Word) : InterruptTable :=
  let pointer := intrNum.toNat * 2
  let idt := Function.update idt pointer (intrDscrTopHalf handlerAddr)
  Function.update idt (pointer + 1) (intrDscrBottomHalf intrNum handlerAddr)

/-- The two words of a gate, the lower one first. -/
structure Gate where
  low : Word
  high : Word

/-- The gate of a vector. -/
def gate (idt : InterruptTable) (vector : Nat) : Gate where
  low := idt (vector * 2)
  high := idt (vector * 2 + 1)

namespace Gate

def selector (gate : Gate) : BitVec 16 := field gate.low 16 16
def type (gate : Gate) : BitVec 4 := field gate.high 8 4
def s (gate : Gate) : BitVec 1 := field gate.high 12 1
def dpl (gate : Gate) : BitVec 2 := field gate.high 13 2
def p (gate : Gate) : BitVec 1 := field gate.high 15 1

/-- The address of the handler. -/
def offset (gate : Gate) : Word :=
  field gate.high 16 16 ++ field gate.low 0 16

/-- A present 32-bit interrupt gate. -/
def IsInterruptGate (gate : Gate) : Prop :=
  gate.s = 0#1 ∧ gate.type = 14#4 ∧ gate.p = 1#1

instance (gate : Gate) : Decidable gate.IsInterruptGate :=
  inferInstanceAs (Decidable (_ ∧ _ ∧ _))

end Gate

section Gates

variable (idt : InterruptTable) (intrNum : Byte) (handlerAddr : Word)

/-- The gate that is set consists of the two variables. -/
theorem gate_intrSetHandler :
    gate (intrSetHandler idt intrNum handlerAddr) intrNum.toNat =
      { low := intrDscrTopHalf handlerAddr
        high := intrDscrBottomHalf intrNum handlerAddr } := by
  have apart : intrNum.toNat * 2 ≠ intrNum.toNat * 2 + 1 :=
    Nat.ne_of_lt (Nat.lt_succ_self _)
  rw [gate, intrSetHandler, Function.update_of_ne apart,
    Function.update_self, Function.update_self]

/-- Every other gate is what it was. -/
theorem gate_intrSetHandler_of_ne {vector : Nat}
    (different : vector ≠ intrNum.toNat) :
    gate (intrSetHandler idt intrNum handlerAddr) vector =
      gate idt vector := by
  have other (word : Nat) (outside : word / 2 ≠ intrNum.toNat) :
      intrSetHandler idt intrNum handlerAddr word = idt word := by
    rw [intrSetHandler, Function.update_of_ne (by omega),
      Function.update_of_ne (by omega)]
  rw [gate, gate, other _ (by omega), other _ (by omega)]

/-- The windows of a word with constant bits outside of one half. -/
theorem field_topHalf :
    field (intrDscrTopHalf handlerAddr) 16 16 = 8#16 ∧
      field (intrDscrTopHalf handlerAddr) 0 16 = field handlerAddr 0 16 := by
  have above : field 0x0000ffff#32 16 16 = 0#16 := by decide
  have below : field 0x0000ffff#32 0 16 = BitVec.allOnes 16 := by decide
  have selector : field (0x00080000#32 &&& 0xffff0000#32) 16 16 = 8#16 := by
    decide
  have nothing : field (0x00080000#32 &&& 0xffff0000#32) 0 16 = 0#16 := by
    decide
  constructor
  · rw [intrDscrTopHalf, field_or, field_and handlerAddr, above, selector,
      BitVec.and_zero, BitVec.or_zero]
  · rw [intrDscrTopHalf, field_or, field_and handlerAddr, below, nothing,
      BitVec.and_allOnes, BitVec.zero_or]

/-- The constant half of the other word, by the vector. -/
def attributes (intrNum : Byte) : BitVec 16 :=
  if intrNum = intrNumUser128 then 0xee00#16 else 0x8e00#16

theorem field_bottomHalf :
    field (intrDscrBottomHalf intrNum handlerAddr) 16 16 =
        field handlerAddr 16 16 ∧
      field (intrDscrBottomHalf intrNum handlerAddr) 0 16 =
        attributes intrNum := by
  have above : field 0xffff0000#32 16 16 = BitVec.allOnes 16 := by decide
  have below : field 0xffff0000#32 0 16 = 0#16 := by decide
  have typeAbove : field 0x00008e00#32 16 16 = 0#16 := by decide
  have typeBelow : field 0x00008e00#32 0 16 = 0x8e00#16 := by decide
  have userAbove : field (3#32 <<< 13) 16 16 = 0#16 := by decide
  have userBelow : field (3#32 <<< 13) 0 16 = 0x6000#16 := by decide
  rw [intrDscrBottomHalf, attributes]
  by_cases user : intrNum = intrNumUser128
  · rw [if_pos user, if_pos user]
    simp only [field_or, field_and, above, below, typeAbove, typeBelow,
      userAbove, userBelow, BitVec.and_allOnes, BitVec.and_zero,
      BitVec.or_zero, BitVec.zero_or, true_and]
    decide
  · rw [if_neg user, if_neg user]
    simp only [field_or, field_and, above, below, typeAbove, typeBelow,
      BitVec.and_allOnes, BitVec.and_zero, BitVec.or_zero, BitVec.zero_or,
      and_self]

/-- A gate as it is meant. -/
structure DecodesGate (gate : Gate) (intrNum : Byte) (handlerAddr : Word) :
    Prop where
  selector : gate.selector = 8#16
  offset : gate.offset = handlerAddr
  interruptGate : gate.IsInterruptGate
  dpl : gate.dpl = if intrNum = intrNumUser128 then 3#2 else 0#2

/-- The processor reads the gate as it is meant. -/
theorem intrSetHandler_decodes :
    DecodesGate (gate (intrSetHandler idt intrNum handlerAddr) intrNum.toNat)
      intrNum handlerAddr := by
  rcases field_topHalf handlerAddr with ⟨selector, addressLow⟩
  rcases field_bottomHalf intrNum handlerAddr with ⟨addressHigh, constants⟩
  have inner (start width : Nat) (inHalf : start + width ≤ 16) :
      field (intrDscrBottomHalf intrNum handlerAddr) start width =
        field (attributes intrNum) start width := by
    rw [← constants, field_field _ _ _ _ _ inHalf, Nat.zero_add]
  rw [gate_intrSetHandler]
  constructor
  · exact selector
  · have whole := field_append handlerAddr 0 16 16
    change field (intrDscrBottomHalf intrNum handlerAddr) 16 16 ++
      field (intrDscrTopHalf handlerAddr) 0 16 = handlerAddr
    rw [addressHigh, addressLow]
    refine whole.trans ?_
    simp [field]
  · rw [Gate.IsInterruptGate, Gate.s, Gate.type, Gate.p,
      inner 12 1 (by decide), inner 8 4 (by decide), inner 15 1 (by decide),
      attributes]
    by_cases user : intrNum = intrNumUser128
    · rw [if_pos user]
      decide
    · rw [if_neg user]
      decide
  · rw [Gate.dpl, inner 13 2 (by decide), attributes]
    by_cases user : intrNum = intrNumUser128
    · rw [if_pos user, if_pos user]
      decide
    · rw [if_neg user, if_neg user]
      decide

end Gates

/-! ## Task state segments -/

section Segments

variable {gdt : DescriptorTable} {idx : Nat} {base limit : Word} {dpl : Byte}

/-- A task state segment as it is meant. -/
structure DecodesTss (entry : SegmentDescriptor) (base limit : Word)
    (dpl : Byte) : Prop where
  base : entry.base = base
  limit : entry.limit.toNat = limit.toNat
  dpl : entry.dpl.toNat = dpl.toNat
  availableTss : entry.IsAvailableTss
  byteGranular : entry.g = 0#1

/-- The processor reads an entry that was zero before as it is meant. -/
theorem initGdt_decodes (small : limit.toNat < 2 ^ 20)
    (privilege : dpl.toNat ≤ 3) (zero : gdt idx = 0#64) :
    DecodesTss (initGdt gdt idx base limit dpl idx) base limit dpl := by
  rw [initGdt, Function.update_self, zero]
  constructor
  · rw [base_install]
  · rw [limit_install, field, BitVec.extractLsb'_toNat,
      Nat.shiftRight_zero]
    exact Nat.mod_eq_of_lt small
  · rw [dpl_install, BitVec.toNat_setWidth]
    exact Nat.mod_eq_of_lt (Nat.lt_succ_of_le privilege)
  · rw [SegmentDescriptor.IsAvailableTss, s_install,
      type_install, p_install]
    decide
  · rw [g_install]
    decide

/-- The descriptors that the kernel writes are read as they are meant, and the
other entries of both tables are unchanged. -/
theorem descriptors_decode (small : limit.toNat < 2 ^ 20)
    (privilege : dpl.toNat ≤ 3) (zero : gdt idx = 0#64) :
    (DecodesTss (initGdt gdt idx base limit dpl idx) base limit dpl ∧
        ∀ other, other ≠ idx →
          initGdt gdt idx base limit dpl other = gdt other) ∧
      ∀ (idt : InterruptTable) (intrNum : Byte) (handlerAddr : Word),
        DecodesGate
            (gate (intrSetHandler idt intrNum handlerAddr) intrNum.toNat)
            intrNum handlerAddr ∧
          ∀ vector, vector ≠ intrNum.toNat →
            gate (intrSetHandler idt intrNum handlerAddr) vector =
              gate idt vector := by
  refine ⟨⟨initGdt_decodes small privilege zero, ?_⟩, ?_⟩
  · intro other different
    exact Function.update_of_ne different _ _
  · intro idt intrNum handlerAddr
    refine ⟨intrSetHandler_decodes idt intrNum handlerAddr, ?_⟩
    intro vector different
    exact gate_intrSetHandler_of_ne idt intrNum handlerAddr different

/-- A free entry of the static table, with addresses whose digits differ. -/
theorem descriptors_decode_staticGdt :
    (DecodesTss (initGdt staticGdt 3 0x89abcdef#32 0x54321#32 3#8 3)
          0x89abcdef#32 0x54321#32 3#8 ∧
        ∀ other, other ≠ 3 →
          initGdt staticGdt 3 0x89abcdef#32 0x54321#32 3#8 other =
            staticGdt other) ∧
      ∀ (idt : InterruptTable) (intrNum : Byte) (handlerAddr : Word),
        DecodesGate
            (gate (intrSetHandler idt intrNum handlerAddr) intrNum.toNat)
            intrNum handlerAddr ∧
          ∀ vector, vector ≠ intrNum.toNat →
            gate (intrSetHandler idt intrNum handlerAddr) vector =
              gate idt vector :=
  descriptors_decode (by decide) (by decide) rfl

end Segments

end MagicalOs.Kernel.GateDescriptors
