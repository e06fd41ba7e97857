import MagicalOs.Devices.Ata

/-!
# The bound of the driver

`sector_rw_common` compares a sector number with one variable that the
initialisation of the master and then that of the slave writes.  The module
compares the bound with what the devices have reported.
-/

namespace MagicalOs.Devices.AtaCapacity

open MagicalOs.Library.ByteMemory
open MagicalOs.Library.PortBus
open MagicalOs.Library.Triples
open MagicalOs.Devices.Ata

/-! ## What the devices have reported -/

/-- The number of sectors in the words 60 and 61. -/
def reported (buf : List Half) : Nat :=
  (buf.getD 61 0#16).toNat * 65536 + (buf.getD 60 0#16).toNat

def identifyData : Identify → Option (List Half)
  | .identified buf => some buf
  | _ => none

/-- The data that were read from a device. -/
def dataOf (opened : Opened) (device : Int) : Option (List Half) :=
  if device = 0 then
    identifyData opened.master
  else if device = 1 then
    opened.slave.bind identifyData
  else
    none

/-- The range check lets the sectors pass which the device has. -/
def RangeCheckExact (opened : Opened) : Prop :=
  ∀ device buf sector, dataOf opened device = some buf →
    (¬opened.maxLogicalSectorNum < sector ↔ sector.toNat < reported buf)

/--
No data were read, or those of the master were replaced by a zero for a slave
that was not ready, and the master has a single sector.
-/
def BoundMeetsData (opened : Opened) : Prop :=
  (dataOf opened 0 = none ∧ dataOf opened 1 = none) ∨
    ∃ buf, opened.master = .identified buf ∧ reported buf = 1 ∧
      opened.slave = some .notReady

theorem sectorNum_toNat (buf : List Half) :
    (sectorNum buf).toNat = reported buf := by
  have low := (buf.getD 60 0#16).isLt
  have high := (buf.getD 61 0#16).isLt
  rw [sectorNum, reported]
  generalize buf.getD 60 0#16 = first at low ⊢
  generalize buf.getD 61 0#16 = second at high ⊢
  rw [BitVec.toNat_or, BitVec.toNat_shiftLeft, BitVec.toNat_setWidth,
    BitVec.toNat_setWidth]
  have firstSmall : first.toNat % 2 ^ 32 = first.toNat :=
    Nat.mod_eq_of_lt (by omega)
  have secondSmall : second.toNat % 2 ^ 32 = second.toNat :=
    Nat.mod_eq_of_lt (by omega)
  rw [firstSmall, secondSmall, Nat.shiftLeft_eq,
    Nat.mod_eq_of_lt (by omega), ← Nat.shiftLeft_eq,
    ← Nat.shiftLeft_add_eq_or_of_lt low, Nat.shiftLeft_eq]

/-! ## How the bound comes about -/

/-- The second initialisation has the last word. -/
structure BoundFrom (opened : Opened) (old : Word) : Prop where
  master : opened.master = .notReady ∨ ∃ buf, opened.master = .identified buf
  slave : opened.slave = some .failed ∨ opened.slave = some .notReady ∨
    ∃ buf, opened.slave = some (.identified buf)
  bound : ∀ slave, opened.slave = some slave →
    opened.maxLogicalSectorNum =
      slave.maxLogicalSectorNum (opened.master.maxLogicalSectorNum old)

section Driver

variable {State : Type} (bus : Bus State)

theorem initializeCommon_triple (reads : Nat) (device : Int) (old : Word) :
    Triple (fun _ => True) (initializeCommon bus reads device old)
      (fun result _ => result.2 = result.1.maxLogicalSectorNum old) := by
  refine Triple.seq _ (Triple.any _) ?_
  refine Triple.bind (Triple.any _) fun low => ?_
  refine Triple.bind (Triple.any _) fun high => ?_
  cases getDeviceType high low with
  | ata =>
      refine Triple.bind (Triple.any _) fun identify => ?_
      exact Triple.pure fun _ _ => rfl
  | atapi => exact Triple.pure fun _ _ => rfl
  | unknown => exact Triple.pure fun _ _ => rfl

/-- The second half of `open_ATA_disk`. -/
theorem slave_triple (reads : Nat) {old bound : Word} {master : Identify}
    (boundEq : bound = master.maxLogicalSectorNum old)
    (ready : master = .notReady ∨ ∃ buf, master = .identified buf) :
    Triple (fun _ => True)
      (do
        let (slave, maxLogicalSectorNum) ←
          initializeCommon bus reads 1 bound
        match slave with
        | .waits => return none
        | _ =>
            return some
              { ret := 0, maxLogicalSectorNum, master, slave := some slave })
      (fun result _ => ∀ opened, result = some opened → opened.ret = 0 →
        BoundFrom opened old) := by
  refine Triple.bind (initializeCommon_triple bus reads 1 bound)
    fun second => ?_
  rcases second with ⟨slave, final⟩
  have done : ∀ (finished : slave = .failed ∨ slave = .notReady ∨
      ∃ buf, slave = .identified buf) (finalEq : final =
        slave.maxLogicalSectorNum bound),
      BoundFrom
        { ret := 0
          maxLogicalSectorNum := final
          master
          slave := some slave } old := by
    intro finished finalEq
    refine ⟨ready, ?_, ?_⟩
    · rcases finished with rfl | rfl | ⟨buf, rfl⟩
      · exact .inl rfl
      · exact .inr (.inl rfl)
      · exact .inr (.inr ⟨buf, rfl⟩)
    · intro other same
      cases same
      rw [finalEq, boundEq]
  cases slave with
  | waits =>
      apply Triple.pure
      intro _ _ opened absent
      cases absent
  | failed =>
      apply Triple.pure
      intro _ finalEq opened same _
      cases same
      exact done (.inl rfl) finalEq
  | notReady =>
      apply Triple.pure
      intro _ finalEq opened same _
      cases same
      exact done (.inr (.inl rfl)) finalEq
  | identified buf =>
      apply Triple.pure
      intro _ finalEq opened same _
      cases same
      exact done (.inr (.inr ⟨buf, rfl⟩)) finalEq

theorem openAtaDisk_triple (reads : Nat) (old : Word) :
    Triple (fun _ => True) (openAtaDisk bus reads old)
      (fun result _ => ∀ opened, result = some opened → opened.ret = 0 →
        BoundFrom opened old) := by
  refine Triple.bind (initializeCommon_triple bus reads 0 old) fun first => ?_
  rcases first with ⟨master, bound⟩
  cases master with
  | waits =>
      apply Triple.pure
      intro _ _ opened absent
      cases absent
  | failed =>
      apply Triple.pure
      intro _ _ opened same failed
      cases same
      cases failed
  | notReady =>
      intro state boundEq
      exact slave_triple bus reads boundEq (.inl rfl) state trivial
  | identified buf =>
      intro state boundEq
      exact slave_triple bus reads boundEq (.inr ⟨buf, rfl⟩) state trivial

end Driver

/-! ## Whether the bound is right -/

section Bound

variable {opened : Opened} {old : Word}

/-- A bound that was reported lets one sector too many pass. -/
theorem not_rangeCheckExact (device : Int) (buf : List Half)
    (data : dataOf opened device = some buf)
    (bound : opened.maxLogicalSectorNum = sectorNum buf) :
    ¬RangeCheckExact opened := by
  intro exactly
  have atBound := exactly device buf (sectorNum buf) data
  rw [bound, sectorNum_toNat] at atBound
  have inside := atBound.mp (BitVec.lt_irrefl _)
  omega

/-- A zero for the bound is right for a device with one sector. -/
theorem zero_exact_iff (count : Nat) (small : count < 2 ^ 32) :
    (∀ sector : Word, ¬0#32 < sector ↔ sector.toNat < count) ↔ count = 1 := by
  constructor
  · intro all
    have zero := (all 0#32).mp (BitVec.lt_irrefl _)
    have noMore : ¬(BitVec.ofNat 32 1).toNat < count := by
      intro inside
      exact absurd ((all 1#32).mpr inside) (by decide)
    simp only [BitVec.toNat_ofNat] at zero noMore
    omega
  · rintro rfl sector
    rw [BitVec.lt_def]
    simp only [BitVec.toNat_ofNat]
    omega

/-- Nothing is asked of the bound when no data were read. -/
theorem exact_of_no_data (master : dataOf opened 0 = none)
    (slave : dataOf opened 1 = none) : RangeCheckExact opened := by
  intro device buf sector data
  by_cases isMaster : device = 0
  · rw [isMaster, master] at data
    cases data
  by_cases isSlave : device = 1
  · rw [isSlave, slave] at data
    cases data
  · rw [dataOf, if_neg isMaster, if_neg isSlave] at data
    cases data

theorem reported_lt (buf : List Half) : reported buf < 2 ^ 32 := by
  rw [← sectorNum_toNat]
  exact (sectorNum buf).isLt

/-- The master has been identified, and the slave not even tried to answer. -/
theorem exact_iff_of_zero {buf : List Half}
    (master : dataOf opened 0 = some buf) (slave : dataOf opened 1 = none)
    (zero : opened.maxLogicalSectorNum = 0#32) :
    RangeCheckExact opened ↔ reported buf = 1 := by
  rw [← zero_exact_iff _ (reported_lt buf), RangeCheckExact, zero]
  constructor
  · exact fun all sector => all 0 buf sector master
  · intro all device other sector data
    by_cases isMaster : device = 0
    · rw [isMaster, master] at data
      cases data
      exact all sector
    by_cases isSlave : device = 1
    · rw [isSlave, slave] at data
      cases data
    · rw [dataOf, if_neg isMaster, if_neg isSlave] at data
      cases data

theorem rangeCheckExact_iff (comes : BoundFrom opened old) :
    RangeCheckExact opened ↔ BoundMeetsData opened := by
  rcases comes with ⟨master, slave, bound⟩
  rcases opened with ⟨ret, bounded, masterIs, slaveIs⟩
  simp only at master slave bound
  rcases slave with rfl | rfl | ⟨slaveBuf, rfl⟩
  · rcases master with rfl | ⟨buf, rfl⟩
    · exact iff_of_true (exact_of_no_data rfl rfl) (.inl ⟨rfl, rfl⟩)
    · refine iff_of_false ?_ ?_
      · exact not_rangeCheckExact 0 buf rfl (bound _ rfl)
      · rintro (⟨absent, _⟩ | ⟨_, _, _, absent⟩)
        · cases absent
        · cases absent
  · have zero : sectorNum (List.replicate 256 0#16) = 0#32 := by
      decide
    rcases master with rfl | ⟨buf, rfl⟩
    · exact iff_of_true (exact_of_no_data rfl rfl) (.inl ⟨rfl, rfl⟩)
    · rw [exact_iff_of_zero rfl rfl ((bound _ rfl).trans zero)]
      constructor
      · exact fun single => .inr ⟨buf, rfl, single, rfl⟩
      · rintro (⟨absent, _⟩ | ⟨other, same, single, _⟩)
        · cases absent
        · cases same
          exact single
  · refine iff_of_false ?_ ?_
    · exact not_rangeCheckExact 1 slaveBuf rfl (bound _ rfl)
    · rintro (⟨_, absent⟩ | ⟨_, _, _, absent⟩)
      · cases absent
      · cases absent

/-- Devices of fewer than 2^28 sectors leave a bound of 28 bits. -/
theorem bound_lt (comes : BoundFrom opened old)
    (small : ∀ device buf, dataOf opened device = some buf →
      reported buf < 2 ^ 28) :
    opened.maxLogicalSectorNum.toNat < 2 ^ 28 := by
  rcases comes with ⟨master, slave, bound⟩
  rcases opened with ⟨ret, bounded, masterIs, slaveIs⟩
  simp only at master slave bound ⊢
  have zero : (sectorNum (List.replicate 256 0#16)).toNat < 2 ^ 28 := by
    decide
  rcases slave with rfl | rfl | ⟨slaveBuf, rfl⟩
  · rw [bound _ rfl]
    rcases master with rfl | ⟨buf, rfl⟩
    · exact zero
    · change (sectorNum buf).toNat < 2 ^ 28
      rw [sectorNum_toNat]
      exact small 0 buf rfl
  · rw [bound _ rfl]
    exact zero
  · rw [bound _ rfl]
    change (sectorNum slaveBuf).toNat < 2 ^ 28
    rw [sectorNum_toNat]
    exact small 1 slaveBuf rfl

end Bound

/--
After `open_ATA_disk` has succeeded, the range check is right for every device
that was identified exactly when the bound meets the data.
-/
theorem openAtaDisk_rangeCheckExact_iff {State : Type} (bus : Bus State)
    (reads : Nat) (maxLogicalSectorNum : Word) (state : State)
    (opened : Opened)
    (returned : ((openAtaDisk bus reads maxLogicalSectorNum).run state).1 =
      some opened)
    (succeeds : opened.ret = 0) :
    RangeCheckExact opened ↔ BoundMeetsData opened :=
  rangeCheckExact_iff
    (openAtaDisk_triple bus reads maxLogicalSectorNum state trivial opened
      returned succeeds)

/-- What LBA28 devices report is a bound that fits into their addresses. -/
theorem openAtaDisk_bound_lt {State : Type} (bus : Bus State) (reads : Nat)
    (maxLogicalSectorNum : Word) (state : State) (opened : Opened)
    (returned : ((openAtaDisk bus reads maxLogicalSectorNum).run state).1 =
      some opened)
    (succeeds : opened.ret = 0)
    (small : ∀ device buf, dataOf opened device = some buf →
      reported buf < 2 ^ 28) :
    opened.maxLogicalSectorNum.toNat < 2 ^ 28 :=
  bound_lt
    (openAtaDisk_triple bus reads maxLogicalSectorNum state trivial opened
      returned succeeds) small

/-! ## A single disk -/

/-- DEVICE/HEAD of the disk, and the number of words it has sent. -/
structure DiskState where
  head : Byte
  sent : Nat

/-- A master with 100 sectors, which always asks for data, and no slave. -/
def singleDisk : Bus DiskState where
  inb port state :=
    (if port = deviceHeadRegister then state.head
      else if port = cylinderLowRegister ∨ port = cylinderHighRegister then
        if state.head.getLsbD 4 then 0xff#8 else 0x00#8
      else 0x58#8,
      state)
  outb value port state :=
    ((), if port = deviceHeadRegister then { state with head := value }
      else state)
  inw _ state :=
    (if state.sent = 60 then 100#16 else 0#16,
      { state with sent := state.sent + 1 })
  outw _ _ state := ((), state)
  wait _ state := ((), state)

/-- The call succeeds with a bound of 100. -/
def singleDiskOpened : Option Opened :=
  ((openAtaDisk singleDisk 1 0#32).run { head := 0#8, sent := 0 }).1

theorem singleDisk_rangeCheck :
    ∃ opened, singleDiskOpened = some opened ∧ opened.ret = 0 ∧
      (RangeCheckExact opened ↔ BoundMeetsData opened) := by
  have returns : singleDiskOpened.map Opened.ret = some 0 := by
    decide +kernel
  rcases Option.map_eq_some_iff.mp returns with ⟨opened, returned, succeeds⟩
  exact ⟨opened, returned, succeeds,
    openAtaDisk_rangeCheckExact_iff singleDisk 1 0#32 _ opened returned
      succeeds⟩

/-- Sector 100 passes, though the last sector of the disk is 99. -/
theorem singleDisk_not_rangeCheckExact :
    ∃ opened, singleDiskOpened = some opened ∧ opened.ret = 0 ∧
      ¬RangeCheckExact opened := by
  have returns : (singleDiskOpened.map fun opened =>
      (opened.ret, opened.maxLogicalSectorNum,
        (dataOf opened 0).map reported)) = some (0, 100#32, some 100) := by
    decide +kernel
  rcases Option.map_eq_some_iff.mp returns with ⟨opened, returned, same⟩
  rcases Prod.mk.inj same with ⟨succeeds, rest⟩
  rcases Prod.mk.inj rest with ⟨bound, data⟩
  rcases Option.map_eq_some_iff.mp data with ⟨buf, read, count⟩
  refine ⟨opened, returned, succeeds, ?_⟩
  intro exactly
  have passes := (exactly 0 buf 100#32 read).mp (by rw [bound]; decide)
  rw [count] at passes
  exact absurd passes (by decide)

end MagicalOs.Devices.AtaCapacity
