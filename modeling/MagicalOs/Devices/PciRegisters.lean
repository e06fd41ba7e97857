import MagicalOs.Devices.Pci

/-!
# The registers of PCI devices

`pci_data_read` and `pci_data_write` reach a register of a device through the
two ports of the host bridge, which every other access uses, too.  Behind them
lies an ideal configuration space: a register holds what was written to it
last.  The bridge also records the registers that an access touches.
-/

namespace MagicalOs.Devices.PciRegisters

open MagicalOs.Library.BitField
open MagicalOs.Library.ByteMemory
open MagicalOs.Devices.Pci hiding readPciData

/-- A register of a function. -/
structure Register where
  place : Location
  number : BitVec 6
  deriving DecidableEq

/-- The host bridge, its functions, and the registers touched so far. -/
structure HostBridge where
  configAddress : Word
  space : ConfigSpace
  touched : List Register

/-- The content of a register. -/
def load (space : ConfigSpace) (register : Register) : Word :=
  space register.place.bus register.place.dev register.place.func
    register.number

/-- A register is written. -/
def store (space : ConfigSpace) (register : Register) (data : Word) :
    ConfigSpace :=
  fun bus dev func number =>
    if register = ⟨⟨bus, dev, func⟩, number⟩ then data
    else space bus dev func number

/-! ## The ports -/

/-- The register that the word in `CONFIG_ADDRESS` selects. -/
def selected (configAddress : Word) : Option Register :=
  if field configAddress 31 1 = 1#1 then
    some
      { place :=
          { bus := field configAddress 16 8
            dev := field configAddress 11 5
            func := field configAddress 8 3 }
        number := field configAddress 2 6 }
  else
    none

/-- `outl_p` to `CONFIG_ADDRESS`, with the word made from `reg`. -/
def writeAddress (reg : ConfigurationRegister) (bridge : HostBridge) :
    HostBridge :=
  { bridge with
    configAddress :=
      (writePciConfigAddress ⟨reg, bridge.configAddress⟩).configAddress }

/-- `inl_p` from `CONFIG_DATA`. -/
def inlData (bridge : HostBridge) : Word × HostBridge :=
  (inlConfigData bridge.space bridge.configAddress,
    { bridge with
      touched := bridge.touched ++ (selected bridge.configAddress).toList })

/-- `outl_p` to `CONFIG_DATA`. -/
def outlData (data : Word) (bridge : HostBridge) : HostBridge :=
  match selected bridge.configAddress with
  | none => bridge
  | some register =>
      { bridge with
        space := store bridge.space register data
        touched := bridge.touched ++ [register] }

/-! ## The functions -/

/-- `finish_access_to_config_data`. -/
def finishAccess (reg : ConfigurationRegister) (bridge : HostBridge) :
    HostBridge :=
  writeAddress { reg with enableBit := 0#32 } bridge

/-- `read_pci_data`. -/
def readPciData (reg : ConfigurationRegister) (bridge : HostBridge) :
    Word × HostBridge :=
  let reg := { reg with enableBit := 1#32 }
  let bridge := writeAddress reg bridge
  let (data, bridge) := inlData bridge
  (data, finishAccess reg bridge)

/-- `write_pci_data`. -/
def writePciData (reg : ConfigurationRegister) (data : Word)
    (bridge : HostBridge) : HostBridge :=
  let reg := { reg with enableBit := 1#32 }
  let bridge := writeAddress reg bridge
  let bridge := outlData data bridge
  finishAccess reg bridge

/-- The variable `reg` of `pci_data_read` and `pci_data_write`. -/
def dataRegister (pci : PciDevice) (regNum : Byte) :
    ConfigurationRegister where
  enableBit := 0#32
  reserved := 0#32
  busNum := pci.bus.setWidth 32
  devNum := pci.devfn.setWidth 32
  funcNum := pci.func.setWidth 32
  regNum := regNum.setWidth 32
  bit0 := 0#32

/-- `pci_data_read`. -/
def pciDataRead (pci : PciDevice) (regNum : Byte) (bridge : HostBridge) :
    Word × HostBridge :=
  readPciData (dataRegister pci regNum) bridge

/-- `pci_data_write`. -/
def pciDataWrite (pci : PciDevice) (regNum : Byte) (data : Word)
    (bridge : HostBridge) : HostBridge :=
  writePciData (dataRegister pci regNum) data bridge

/-- The scan reads the same word, and leaves the same address behind. -/
theorem readPciData_eq (reg : ConfigurationRegister) (bridge : HostBridge) :
    let scan := Pci.readPciData bridge.space ⟨reg, bridge.configAddress⟩
    (readPciData reg bridge).1 = scan.1 ∧
      (readPciData reg bridge).2.configAddress = scan.2.configAddress :=
  ⟨rfl, rfl⟩

/-! ## Places in the configuration space -/

/-- A device and a register number that fit into the word of mechanism 1. -/
structure Valid (pci : PciDevice) (regNum : Byte) : Prop where
  dev : pci.devfn.toNat ≤ 31
  func : pci.func.toNat ≤ 7
  aligned : regNum.toNat % 4 = 0

/-- The bus, device, function and register number as they are passed. -/
def location (pci : PciDevice) (regNum : Byte) : Byte × Byte × Byte × Byte :=
  (pci.bus, pci.devfn, pci.func, regNum)

/-- The register that is meant. -/
def register (pci : PciDevice) (regNum : Byte) : Register where
  place :=
    { bus := pci.bus
      dev := pci.devfn.setWidth 5
      func := pci.func.setWidth 3 }
  number := field regNum 2 6

section Places

variable {pci other : PciDevice} {regNum otherNum : Byte}

/-- A small byte is not changed by a detour over fewer bits. -/
theorem setWidth_setWidth {byte : Byte} {width : Nat} (size : Nat)
    (small : byte.toNat < 2 ^ width) :
    (byte.setWidth width).setWidth size = byte.setWidth size := by
  apply BitVec.eq_of_toNat_eq
  rw [BitVec.toNat_setWidth, BitVec.toNat_setWidth, BitVec.toNat_setWidth,
    Nat.mod_eq_of_lt small]

/-- An aligned register number consists of its upper bits. -/
theorem shifted_field (aligned : regNum.toNat % 4 = 0) :
    shifted 32 (field regNum 2 6) 2 = regNum.setWidth 32 := by
  have bound := regNum.isLt
  have upper : regNum.toNat / 4 % 64 = regNum.toNat / 4 :=
    Nat.mod_eq_of_lt (by omega)
  have whole : regNum.toNat / 4 * 4 = regNum.toNat :=
    Nat.div_mul_cancel (Nat.dvd_of_mod_eq_zero aligned)
  have number : (field regNum 2 6).toNat = regNum.toNat / 4 := by
    rw [field, BitVec.extractLsb'_toNat, Nat.shiftRight_eq_div_pow]
    exact upper
  apply BitVec.eq_of_toNat_eq
  rw [shifted, BitVec.toNat_shiftLeft, BitVec.toNat_setWidth,
    BitVec.toNat_setWidth, number, Nat.shiftLeft_eq]
  omega

/-- The fields of `reg` are not wider than those of the word. -/
theorem Valid.devWord (valid : Valid pci regNum) :
    (pci.devfn.setWidth 5).setWidth 32 = pci.devfn.setWidth 32 :=
  @setWidth_setWidth pci.devfn 5 32 (Nat.lt_succ_of_le valid.dev)

theorem Valid.funcWord (valid : Valid pci regNum) :
    (pci.func.setWidth 3).setWidth 32 = pci.func.setWidth 32 :=
  @setWidth_setWidth pci.func 3 32 (Nat.lt_succ_of_le valid.func)

/-- The variable `reg` addresses the register that is meant. -/
theorem dataRegister_targets (valid : Valid pci regNum) :
    Targets (dataRegister pci regNum) (register pci regNum).place ∧
      (dataRegister pci regNum).regNum =
        shifted 32 (register pci regNum).number 2 := by
  constructor
  · constructor
    · rfl
    · rfl
    · exact valid.devWord.symm
    · exact valid.funcWord.symm
  · exact (shifted_field valid.aligned).symm

/-- Different places are different registers. -/
theorem register_eq_iff (valid : Valid pci regNum)
    (otherValid : Valid other otherNum) :
    register pci regNum = register other otherNum ↔
      location pci regNum = location other otherNum := by
  constructor
  · intro same
    have widened {left right : Byte} (equal : left.setWidth 32 =
        right.setWidth 32) : left = right := by
      have back := congrArg (BitVec.setWidth 8) equal
      simpa using back
    have bus : pci.bus = other.bus :=
      congrArg (fun register => register.place.bus) same
    have dev : pci.devfn = other.devfn := by
      have low : pci.devfn.setWidth 5 = other.devfn.setWidth 5 :=
        congrArg (fun register => register.place.dev) same
      apply widened
      rw [← valid.devWord, ← otherValid.devWord, low]
    have func : pci.func = other.func := by
      have low : pci.func.setWidth 3 = other.func.setWidth 3 :=
        congrArg (fun register => register.place.func) same
      apply widened
      rw [← valid.funcWord, ← otherValid.funcWord, low]
    have number : regNum = otherNum := by
      have high : field regNum 2 6 = field otherNum 2 6 :=
        congrArg Register.number same
      apply widened
      rw [← shifted_field valid.aligned, ← shifted_field otherValid.aligned,
        high]
    rw [location, location, bus, dev, func, number]
  · intro same
    rcases Prod.mk.inj same with ⟨bus, rest⟩
    rcases Prod.mk.inj rest with ⟨dev, rest⟩
    rcases Prod.mk.inj rest with ⟨func, number⟩
    rw [register, register, bus, dev, func, number]

end Places

/-! ## One access -/

theorem load_store_self (space : ConfigSpace) (register : Register)
    (data : Word) : load (store space register data) register = data :=
  if_pos rfl

theorem load_store_of_ne {register other : Register} (space : ConfigSpace)
    (data : Word) (different : other ≠ register) :
    load (store space register data) other = load space other :=
  if_neg different.symm

/-- What an access to a register does not do. -/
structure Confined (register : Register) (before after : HostBridge) :
    Prop where
  touched : after.touched = before.touched ++ [register]
  others : ∀ other, other ≠ register →
    load after.space other = load before.space other
  disabled : field after.configAddress 31 1 = 0#1

section Access

variable {reg : ConfigurationRegister} {register : Register}
  (targets : Targets reg register.place)
  (isNumber : reg.regNum = shifted 32 register.number 2)
  (bridge : HostBridge) (data : Word)
include targets isNumber

/-- With its enable bit, `reg` selects the register. -/
theorem selected_enabled :
    selected
        (writeAddress { reg with enableBit := 1#32 } bridge).configAddress =
      some register := by
  have address :
      (writeAddress { reg with enableBit := 1#32 } bridge).configAddress =
        configWord 1#1 register.place register.number := by
    apply configAddress_eq
    · exact ⟨targets.reserved, targets.bus, targets.dev, targets.func⟩
    · exact isNumber
    · rfl
  rcases field_configWord 1#1 register.place register.number with
    ⟨enabled, bus, dev, func, number⟩
  rw [address, selected, enabled, if_pos rfl, bus, dev, func, number]

/-- The end of an access disables the address. -/
theorem finishAccess_disabled :
    field (finishAccess reg bridge).configAddress 31 1 = 0#1 := by
  have address : (finishAccess reg bridge).configAddress =
      configWord 0#1 register.place register.number := by
    apply configAddress_eq
    · exact ⟨targets.reserved, targets.bus, targets.dev, targets.func⟩
    · exact isNumber
    · rfl
  rw [address]
  exact (field_configWord 0#1 register.place register.number).1

/-- A read returns the content of the register and changes none. -/
theorem readPciData_spec :
    (readPciData reg bridge).1 = load bridge.space register ∧
      (readPciData reg bridge).2.space = bridge.space ∧
      Confined register bridge (readPciData reg bridge).2 := by
  have selects := selected_enabled targets isNumber bridge
  refine ⟨?_, rfl, ?_, fun _ _ => rfl, ?_⟩
  · rw [selected] at selects
    change inlConfigData bridge.space
      (writeAddress { reg with enableBit := 1#32 } bridge).configAddress = _
    rw [inlConfigData]
    by_cases enabled : field
        (writeAddress { reg with enableBit := 1#32 } bridge).configAddress
        31 1 = 1#1
    · rw [if_pos enabled] at selects
      rw [if_pos enabled, ← Option.some.inj selects]
      rfl
    · rw [if_neg enabled] at selects
      cases selects
  · change bridge.touched ++ (selected (writeAddress
      { reg with enableBit := 1#32 } bridge).configAddress).toList = _
    rw [selects]
    rfl
  · exact finishAccess_disabled
      ⟨targets.reserved, targets.bus, targets.dev, targets.func⟩ isNumber _

/-- A write stores the data in the register. -/
theorem writePciData_spec :
    (writePciData reg data bridge).space =
        store bridge.space register data ∧
      Confined register bridge (writePciData reg data bridge) := by
  have selects := selected_enabled targets isNumber bridge
  have stored :
      outlData data (writeAddress { reg with enableBit := 1#32 } bridge) =
        { writeAddress { reg with enableBit := 1#32 } bridge with
          space := store bridge.space register data
          touched := bridge.touched ++ [register] } := by
    rw [outlData, selects]
    rfl
  have space : (writePciData reg data bridge).space =
      store bridge.space register data := by
    change (outlData data _).space = _
    rw [stored]
  refine ⟨space, ?_, ?_, ?_⟩
  · change (outlData data _).touched = _
    rw [stored]
  · intro other different
    rw [space, load_store_of_ne bridge.space data different]
  · exact finishAccess_disabled
      ⟨targets.reserved, targets.bus, targets.dev, targets.func⟩ isNumber _

end Access

/-! ## Runs of accesses -/

/-- One call of `pci_data_read` or `pci_data_write`. -/
inductive Access where
  | read (pci : PciDevice) (regNum : Byte)
  | write (pci : PciDevice) (regNum : Byte) (data : Word)

namespace Access

def pci : Access → PciDevice
  | read pci _ => pci
  | write pci _ _ => pci

def regNum : Access → Byte
  | read _ regNum => regNum
  | write _ regNum _ => regNum

/-- The host bridge after the call. -/
def run : Access → HostBridge → HostBridge
  | read pci regNum, bridge => (pciDataRead pci regNum bridge).2
  | write pci regNum data, bridge => pciDataWrite pci regNum data bridge

/-- Every access is confined to the register it is meant for. -/
theorem run_confined (access : Access)
    (valid : Valid access.pci access.regNum) (bridge : HostBridge) :
    Confined (register access.pci access.regNum) bridge
      (access.run bridge) := by
  rcases dataRegister_targets valid with ⟨targets, isNumber⟩
  cases access with
  | read pci regNum => exact (readPciData_spec targets isNumber bridge).2.2
  | write pci regNum data =>
      exact (writePciData_spec targets isNumber bridge data).2

end Access

def runAll (accesses : List Access) (bridge : HostBridge) : HostBridge :=
  accesses.foldl (fun bridge access => access.run bridge) bridge

/-- A call for another place. -/
structure Elsewhere (pci : PciDevice) (regNum : Byte) (access : Access) :
    Prop where
  valid : Valid access.pci access.regNum
  elsewhere : location access.pci access.regNum ≠ location pci regNum

/-- Accesses to other places leave a register as it was. -/
theorem runAll_load {pci : PciDevice} {regNum : Byte}
    (valid : Valid pci regNum) {others : List Access}
    (elsewhere : ∀ access ∈ others, Elsewhere pci regNum access)
    (bridge : HostBridge) :
    load (runAll others bridge).space (register pci regNum) =
      load bridge.space (register pci regNum) := by
  induction others generalizing bridge with
  | nil => rfl
  | cons access others hypothesis =>
      rcases List.forall_mem_cons.mp elsewhere with ⟨first, later⟩
      have different :
          register pci regNum ≠ register access.pci access.regNum := by
        intro same
        exact first.elsewhere
          ((register_eq_iff valid first.valid).mp same).symm
      have kept := (access.run_confined first.valid bridge).others
        (register pci regNum) different
      exact (hypothesis later (access.run bridge)).trans kept

/-- What has been written is read, whatever happens elsewhere in between; and
no access touches another register or leaves the address enabled. -/
theorem read_after_write {pci : PciDevice} {regNum : Byte}
    (valid : Valid pci regNum) (v : Word) {others : List Access}
    (elsewhere : ∀ access ∈ others, Elsewhere pci regNum access)
    (bridge : HostBridge) :
    (pciDataRead pci regNum
        (runAll others (pciDataWrite pci regNum v bridge))).1 = v ∧
      ∀ access : Access, Valid access.pci access.regNum → ∀ bridge,
        Confined (register access.pci access.regNum) bridge
          (access.run bridge) := by
  rcases dataRegister_targets valid with ⟨targets, isNumber⟩
  constructor
  · have reads := (readPciData_spec targets isNumber
      (runAll others (pciDataWrite pci regNum v bridge))).1
    have written := (writePciData_spec targets isNumber bridge v).1
    calc
      (pciDataRead pci regNum
            (runAll others (pciDataWrite pci regNum v bridge))).1 =
          load (runAll others (pciDataWrite pci regNum v bridge)).space
            (register pci regNum) := reads
      _ = load (pciDataWrite pci regNum v bridge).space
            (register pci regNum) := runAll_load valid elsewhere _
      _ = load (store bridge.space (register pci regNum) v)
            (register pci regNum) :=
          congrArg (fun space => load space (register pci regNum)) written
      _ = v := load_store_self bridge.space (register pci regNum) v
  · intro access accessValid bridge
    exact access.run_confined accessValid bridge

/-- A device with the largest numbers keeps its command register while its
neighbours are accessed. -/
theorem read_after_write_last :
    let device (dev func : Byte) : PciDevice :=
      storedDevice 255#8 dev 0#32 func 0#32 0#32 0#32
    let others : List Access :=
      [.write (device 31#8 6#8) 4#8 1#32, .write (device 31#8 7#8) 8#8 2#32,
        .read (device 0#8 0#8) 0xfc#8]
    let bridge : HostBridge :=
      { configAddress := 0#32, space := fun _ _ _ _ => 0#32, touched := [] }
    (pciDataRead (device 31#8 7#8) 4#8
          (runAll others (pciDataWrite (device 31#8 7#8) 4#8 3#32 bridge))).1 =
        3#32 ∧
      ∀ access : Access, Valid access.pci access.regNum → ∀ bridge,
        Confined (register access.pci access.regNum) bridge
          (access.run bridge) := by
  intro device others bridge
  have valid : Valid (device 31#8 7#8) 4#8 :=
    ⟨by decide, by decide, by decide⟩
  have elsewhere :
      ∀ access ∈ others, Elsewhere (device 31#8 7#8) 4#8 access := by
    intro access member
    simp only [others, List.mem_cons, List.not_mem_nil, or_false] at member
    rcases member with rfl | rfl | rfl
    · exact ⟨⟨by decide, by decide, by decide⟩, by decide⟩
    · exact ⟨⟨by decide, by decide, by decide⟩, by decide⟩
    · exact ⟨⟨by decide, by decide, by decide⟩, by decide⟩
  exact read_after_write valid 3#32 elsewhere bridge

end MagicalOs.Devices.PciRegisters
