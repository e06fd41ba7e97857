import MagicalOs.Boot.BootSector

/-!
# The switch to protected mode

The boot sector copies its table of descriptors behind the memory which it has
loaded, and switches to protected mode with it.  Whatever the registers held
before, the kernel begins with the same ones.
-/

namespace MagicalOs.Boot.ProtectedMode

open MagicalOs.Library.ByteMemory
open MagicalOs.Library.ByteMemory.Memory
open MagicalOs.Library.HeldBytes
open MagicalOs.Kernel.Descriptors
open MagicalOs.Kernel.Descriptors.SegmentDescriptor
open MagicalOs.Boot.BootSector

variable {Bios Ports : Type}

/-! ## Protected mode -/

/-- A segment register with an entry of the table of `sys.S`. -/
def flat (selector : Half) (idx : Nat) : Segment where
  selector := selector
  entry := some (staticGdt idx)

/-- The processor at the first instruction of the kernel. -/
def kernelProcessor : Processor where
  cs := flat 8#16 1
  ds := flat 16#16 2
  es := flat 16#16 2
  fs := flat 16#16 2
  gs := flat 16#16 2
  ss := flat 16#16 2
  gdtLimit := 0x0017#16
  gdtBase := 0x00090000#32
  protectedMode := true
  ip := 0x7e00#32

/-- The processor with the copied table, in protected mode. -/
def withGdt (cpu : Processor) : Processor :=
  { cpu with
    gdtLimit := 0x0017#16
    gdtBase := 0x00090000#32
    protectedMode := true }

section Table

variable {machine : Machine Bios Ports} {mem : Memory} {cpu : Processor}
  {data : Nat}

/-- A half word holds its two bytes, the lower one first. -/
theorem load8_of_load16 (mem : Memory) (address index : Nat)
    (small : index < 2) :
    mem (address + index) =
      (mem.load16 address).extractLsb' (8 * index) 8 := by
  rw [Memory.load16]
  apply BitVec.eq_of_getLsbD_eq
  intro bit inByte
  rw [BitVec.getLsbD_extractLsb', BitVec.getLsbD_append]
  rcases Nat.le_one_iff_eq_zero_or_eq_one.mp (Nat.le_of_lt_succ small) with
    rfl | rfl
  · rw [if_pos (by omega)]
    simp [inByte]
  · rw [if_neg (by omega)]
    simp [inByte]

/-- A half word which is copied. -/
theorem store16_load16 (mem : Memory) (source target index : Nat)
    (small : index < 2) :
    mem.store16 target (mem.load16 source) (target + index) =
      mem (source + index) := by
  rw [load8_of_load16 (mem.store16 target (mem.load16 source)) target index
    small, load16_store16_self,
    ← load8_of_load16 mem source index small]

/-- The words are copied, and nothing else is changed. -/
theorem repMovsw_spec (source target cx : Nat) (si di : Half) (mem : Memory)
    (sourceRoom : si.toNat + 2 * cx < 65536)
    (targetRoom : di.toNat + 2 * cx < 65536)
    (apart : source + si.toNat + 2 * cx ≤ target + di.toNat) :
    AgreeOutside (repMovsw source target cx si di mem) mem
        (target + di.toNat) (2 * cx) ∧
      ∀ index < 2 * cx,
        repMovsw source target cx si di mem (target + di.toNat + index) =
          mem (source + si.toNat + index) := by
  induction cx generalizing si di mem with
  | zero => exact ⟨fun _ _ => rfl, fun index small => absurd small (by omega)⟩
  | succ cx induction =>
      have two : (2#16).toNat = 2 := rfl
      have nextSource : (si + 2#16).toNat = si.toNat + 2 :=
        BitVec.toNat_add_of_lt (by omega)
      have nextTarget : (di + 2#16).toNat = di.toNat + 2 :=
        BitVec.toNat_add_of_lt (by omega)
      have rest := induction (si + 2#16) (di + 2#16)
        (mem.store16 (target + di.toNat) (mem.load16 (source + si.toNat)))
      rw [nextSource, nextTarget, ← Nat.add_assoc, ← Nat.add_assoc] at rest
      rcases rest (by omega) (by omega) (by omega) with ⟨frame, copied⟩
      have stored := store16_agreeOutside mem (target + di.toNat)
        (mem.load16 (source + si.toNat))
      rw [repMovsw]
      constructor
      · exact (frame.mono (by omega) (by omega)).trans
          (stored.mono (Nat.le_refl _) (by omega))
      · intro index small
        by_cases first : index < 2
        · rw [frame _ (by omega)]
          exact store16_load16 mem _ _ index first
        · rcases Nat.exists_eq_add_of_le (Nat.le_of_not_lt first) with
            ⟨further, rfl⟩
          have later := copied further (by omega)
          rw [← Nat.add_assoc (target + di.toNat), later,
            ← Nat.add_assoc (source + si.toNat)]
          exact stored _ (by omega)

/-- The copied table holds the entries of the table of `sys.S`. -/
theorem load64_gdt (holds : Holds mem 0x90000 gdt) :
    load64 mem 0x90008 = staticGdt 1 ∧ load64 mem 0x90010 = staticGdt 2 := by
  have byte (index : Nat) (inside : index < gdt.length) :=
    holds.getElem inside
  constructor
  · calc load64 mem 0x90008 =
          ((mem (0x90000 + 15) ++ mem (0x90000 + 14)) ++
            (mem (0x90000 + 13) ++ mem (0x90000 + 12))) ++
          ((mem (0x90000 + 11) ++ mem (0x90000 + 10)) ++
            (mem (0x90000 + 9) ++ mem (0x90000 + 8))) := rfl
      _ = staticGdt 1 := by
          rw [byte 15 (by decide), byte 14 (by decide), byte 13 (by decide),
            byte 12 (by decide), byte 11 (by decide), byte 10 (by decide),
            byte 9 (by decide), byte 8 (by decide)]
          rfl
  · calc load64 mem 0x90010 =
          ((mem (0x90000 + 23) ++ mem (0x90000 + 22)) ++
            (mem (0x90000 + 21) ++ mem (0x90000 + 20))) ++
          ((mem (0x90000 + 19) ++ mem (0x90000 + 18)) ++
            (mem (0x90000 + 17) ++ mem (0x90000 + 16))) := rfl
      _ = staticGdt 2 := by
          rw [byte 23 (by decide), byte 22 (by decide), byte 21 (by decide),
            byte 20 (by decide), byte 19 (by decide), byte 18 (by decide),
            byte 17 (by decide), byte 16 (by decide)]
          rfl

theorem segment_of_entry {type : BitVec 4} {value : Half}
    {entry : SegmentDescriptor} (isProtected : cpu.protectedMode = true)
    (inTable : value.toNat / 8 * 8 + 7 ≤ cpu.gdtLimit.toNat)
    (found : load64 mem (cpu.gdtBase.toNat + value.toNat / 8 * 8) = entry)
    (valid : IsSegment type entry) :
    cpu.segment mem type value =
      some { selector := value, entry := some entry } := by
  subst found
  rw [Processor.segment, if_pos isProtected]
  exact if_pos ⟨inTable, valid⟩

/-- Both selectors are found in the copied table. -/
theorem segment_withGdt (holds : Holds mem 0x90000 gdt) (cpu : Processor) :
    (withGdt cpu).segment mem dataType (2#16 * 8#16) =
        some (flat 16#16 2) ∧
      (withGdt cpu).segment mem codeType 8#16 = some (flat 8#16 1) := by
  rcases load64_gdt holds with ⟨code, data⟩
  have limit : (withGdt cpu).gdtLimit.toNat = 23 := rfl
  constructor
  · apply segment_of_entry rfl
    · rw [limit]
      decide
    · exact data
    · decide
  · apply segment_of_entry rfl
    · rw [limit]
      decide
    · exact code
    · decide

/-- `lgdtw` and `lmsw` find the limit and the base of the copied table. -/
theorem lgdtw_spec (ds : cpu.ds = { selector := 0x07c0#16, entry := none })
    (offset : Half) (holds : Holds mem (0x7c00 + offset.toNat) gdtDescr) :
    lgdtw cpu mem offset =
      { cpu with gdtLimit := 0x0017#16, gdtBase := 0x00090000#32 } := by
  have byte (index : Nat) (inside : index < gdtDescr.length) :=
    holds.getElem inside
  have base : cpu.ds.base = 0x7c00 := by
    rw [ds]
    rfl
  have limit : mem.load16 (0x7c00 + offset.toNat) = 0x0017#16 := by
    have low := byte 0 (by decide)
    have high := byte 1 (by decide)
    rw [Memory.load16, high]
    rw [Nat.add_zero] at low
    rw [low]
    rfl
  have address : mem.load32 (0x7c00 + offset.toNat + 2) = 0x00090000#32 := by
    calc mem.load32 (0x7c00 + offset.toNat + 2) =
          (mem (0x7c00 + offset.toNat + 5) ++
            mem (0x7c00 + offset.toNat + 4)) ++
          (mem (0x7c00 + offset.toNat + 3) ++
            mem (0x7c00 + offset.toNat + 2)) := rfl
      _ = 0x00090000#32 := by
          rw [byte 2 (by decide), byte 3 (by decide), byte 4 (by decide),
            byte 5 (by decide)]
          rfl
  rw [lgdtw, base, limit, address]
  rfl

theorem lmsw_lgdtw (real : cpu.protectedMode = false)
    (ds : cpu.ds = { selector := 0x07c0#16, entry := none }) (offset : Half)
    (holds : Holds mem (0x7c00 + offset.toNat) gdtDescr) :
    lmsw (lgdtw cpu mem offset) 0x0001#16 = withGdt cpu := by
  rw [lgdtw_spec ds offset holds, lmsw]
  simp only [real]
  rfl

/-- The table behind `rep movsw`. -/
def withTable (data : Nat) (mem : Memory) : Memory :=
  repMovsw 0x7c00 0x90000 12 (label data 6) 0#16 mem

theorem withTable_spec (holds : HoldsData mem data) :
    AgreeOutside (withTable data mem) mem 0x90000 24 ∧
      Holds (withTable data mem) 0x90000 gdt := by
  have fits := holds.fits
  have size : dataSection.length = 78 := by decide
  have position : (label data 6).toNat = data + 6 :=
    holds.toNat_label (by decide)
  have zero : (0#16).toNat = 0 := rfl
  have copied := repMovsw_spec 0x7c00 0x90000 12 (label data 6) 0#16 mem
  rw [position, zero] at copied
  rcases copied (by omega) (by omega) (by omega) with ⟨frame, values⟩
  refine ⟨frame, holds_iff_getElem.mpr fun index inside => ?_⟩
  have value := values index inside
  rw [Nat.add_zero, ← Nat.add_assoc] at value
  rw [withTable, value]
  exact holds.table.2.getElem inside

/-- The processor comes to the kernel in one state, with its table in place. -/
theorem enterProtectedMode_eq (machine : Machine Bios Ports)
    (real : machine.cpu.protectedMode = false)
    (holds : HoldsData machine.mem data) :
    enterProtectedMode (label data 0) (label data 6) machine =
      some { machine with
        mem := withTable data machine.mem
        cpu := kernelProcessor } := by
  have position : (label data 0).toNat = data := holds.toNat_label (by decide)
  have fits := holds.fits
  rcases withTable_spec holds with ⟨frame, table⟩
  have descr : Holds (withTable data machine.mem)
      (0x7c00 + (label data 0).toNat) gdtDescr := by
    rw [position]
    apply holds_iff_getElem.mpr
    intro index inside
    have small : index < 6 := inside
    rw [frame _ (by omega)]
    exact holds.table.1.getElem inside
  have copied : repMovsw
      (Segment.base { selector := 0x07c0#16, entry := none })
      (Segment.base { selector := 0x9000#16, entry := none }) 12 (label data 6)
      0#16 machine.mem = withTable data machine.mem := rfl
  simp only [enterProtectedMode, segment_of_real real, Option.bind_eq_bind,
    Option.bind_some, copied]
  have copying : ({ machine.cpu with
      ds := { selector := 0x07c0#16, entry := none }
      es := { selector := 0x9000#16, entry := none } } :
        Processor).protectedMode = false := real
  rw [lmsw_lgdtw copying rfl _ descr]
  simp only [(segment_withGdt table _).1, (segment_withGdt table _).2,
    Option.bind_some]
  rfl

end Table

end MagicalOs.Boot.ProtectedMode
