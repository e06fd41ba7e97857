import MagicalOs.Kernel.HeapLists
import MagicalOs.Library.BitField
import Mathlib.Data.List.Range

/-!
# The PCI scan

`find_pci_device` reads the configuration space through two ports.  The host
bridge keeps what is written to `CONFIG_ADDRESS` and answers a read of
`CONFIG_DATA` with the register this word selects, as long as its enable bit
is set.  Each function which answers is stored on a list with the static head
`pci_device_head`.

The three loops of the scan compare with `PCI_BUS_MAX`, `PCI_DEVICE_MAX` and
`PCI_FUNCTION_MAX`, which are the last numbers, and stop before them.  What the
scan prints is left out.
-/

namespace MagicalOs.Devices.Pci

open MagicalOs.Library.BitField
open MagicalOs.Library.ByteMemory
open MagicalOs.Library.SentinelList
open MagicalOs.Kernel.HeapLists
open MagicalOs.Kernel.KernelHeap

def pciBusMax : Nat := 255
def pciDeviceMax : Nat := 31
def pciFunctionMax : Nat := 7

/-- The registers of all functions, by bus, device, function and number. -/
abbrev ConfigSpace := BitVec 8 → BitVec 5 → BitVec 3 → BitVec 6 → Word

/-- `struct pci_configuration_register`. -/
structure ConfigurationRegister where
  enableBit : Word
  reserved : Word
  busNum : Word
  devNum : Word
  funcNum : Word
  regNum : Word
  bit0 : Word

/-- `struct pci_device`. -/
@[ext]
structure PciDevice where
  bus : Byte
  devfn : Byte
  func : Byte
  vender : Half
  devid : Half
  revid : Byte
  pgIf : Byte
  subClass : Word
  baseClass : Word
  headerType : Byte
  multi : Byte
  subVender : Half
  subDevid : Half
  baseAddress : Word
  interruptLine : Half
  deriving DecidableEq

/-- The list of devices, and the heap its nodes come from. -/
structure DeviceList where
  heap : Heap
  data : Pointer → PciDevice
  next : Pointer → Pointer

/-! ## Access to the configuration space -/

/-- The local variable `reg`, and the word in `CONFIG_ADDRESS`. -/
structure ConfigAccess where
  reg : ConfigurationRegister
  configAddress : Word

/-- `inl_p(CONFIG_DATA_1)`, as the host bridge answers it. -/
def inlConfigData (space : ConfigSpace) (configAddress : Word) : Word :=
  if field configAddress 31 1 = 1#1 then
    space (field configAddress 16 8) (field configAddress 11 5)
      (field configAddress 8 3) (field configAddress 2 6)
  else
    0xffffffff#32

/-- `write_pci_config_address`. -/
def writePciConfigAddress (access : ConfigAccess) : ConfigAccess :=
  let reg := access.reg
  { access with
    configAddress :=
      (reg.enableBit <<< 31) ||| (reg.reserved <<< 24) |||
        (reg.busNum <<< 16) ||| (reg.devNum <<< 11) |||
        (reg.funcNum <<< 8) ||| reg.regNum }

/-- `finish_access_to_config_data`. -/
def finishAccessToConfigData (access : ConfigAccess) : ConfigAccess :=
  writePciConfigAddress
    { access with reg := { access.reg with enableBit := 0#32 } }

/-- `read_pci_data`. -/
def readPciData (space : ConfigSpace) (access : ConfigAccess) :
    Word × ConfigAccess :=
  let access :=
    writePciConfigAddress
      { access with reg := { access.reg with enableBit := 1#32 } }
  let data := inlConfigData space access.configAddress
  (data, finishAccessToConfigData access)

/-- The functions which read one register. -/
def readRegister (regNum : Word) (space : ConfigSpace)
    (access : ConfigAccess) : Word × ConfigAccess :=
  readPciData space
    { access with reg := { access.reg with regNum := regNum } }

/-- `read_pci_reg00`. -/
def readPciReg00 := readRegister 0x00#32

/-- `read_pci_command_register`. -/
def readPciCommandRegister := readRegister 0x04#32

/-- `read_pci_class`. -/
def readPciClass := readRegister 0x08#32

/-- `read_pci_header_type`. -/
def readPciHeaderType := readRegister 0x0c#32

/-- `read_pci_sub_system`. -/
def readPciSubSystem := readRegister 0x2c#32

/-! ## The list of devices -/

/-- `is_multi_function`. -/
def isMultiFunction (data : Word) : Bool := data &&& 0x800000#32 ≠ 0#32

/-- `sizeof(struct pci_device_list)`. -/
def sizeofDeviceList : Word := 40#32

/-- The fields `store_pci_device_to_list` sets, after `memset`. -/
def storedDevice (bus devfn : Byte) (data : Word) (func : Byte)
    (pciClass header subsystem : Word) : PciDevice where
  bus := bus
  devfn := devfn
  func := func
  vender := (data &&& 0xffff#32).setWidth 16
  devid := ((data >>> 16) &&& 0xffff#32).setWidth 16
  revid := 0#8
  pgIf := ((pciClass >>> 8) &&& 0xff#32).setWidth 8
  subClass := (pciClass >>> 16) &&& 0xff#32
  baseClass := (pciClass >>> 24) &&& 0xff#32
  headerType := (((header >>> 16) &&& 0xff#32) &&& 0x7f#32).setWidth 8
  multi := if header &&& 0x800000#32 ≠ 0#32 then 1#8 else 0#8
  subVender := (subsystem &&& 0xffff#32).setWidth 16
  subDevid := ((subsystem >>> 16) &&& 0xffff#32).setWidth 16
  baseAddress := 0#32
  interruptLine := 0#16

/--
`store_pci_device_to_list`; there is no result when `kmalloc` aborts, or when
it fails and `find_pci_data` does.
-/
def storePciDeviceToList (bus devfn : Byte) (data : Word) (func : Byte)
    (pciClass header subsystem : Word) (list : DeviceList) :
    Option DeviceList :=
  (kmalloc list.heap sizeofDeviceList).bind fun (p, heap) =>
    if p = 0 then
      none
    else
      some
        { heap := heap
          data :=
            Function.update list.data (.node p)
              (storedDevice bus devfn data func pciClass header subsystem)
          next := pushFront list.next .head (.node p) }

/-! ## The scan -/

/-- The word in `CONFIG_ADDRESS`, and the list. -/
structure PciState where
  configAddress : Word
  list : DeviceList

/-- The loop of `find_pci_data`, from the function `i` on. -/
def findPciDataFrom (space : ConfigSpace) (bus dev : Byte) :
    (remaining i : Nat) → ConfigAccess → DeviceList → Option PciState
  | 0, _, access, list => some ⟨access.configAddress, list⟩
  | remaining + 1, i, access, list =>
      let access :=
        { access with
          reg := { access.reg with funcNum := BitVec.ofNat 32 i } }
      let (data, access) := readPciReg00 space access
      if data ≠ 0xffffffff#32 then
        let (pciClass, access) := readPciClass space access
        let (header, access) := readPciHeaderType space access
        let (subsystem, access) := readPciSubSystem space access
        let (_, access) := readPciCommandRegister space access
        (storePciDeviceToList bus dev data (BitVec.ofNat 8 i) pciClass header
            subsystem list).bind fun list =>
          if i = 0 ∧ isMultiFunction header = false then
            some ⟨access.configAddress, list⟩
          else
            findPciDataFrom space bus dev remaining (i + 1) access list
      else
        findPciDataFrom space bus dev remaining (i + 1) access list

/-- The variable `reg` of `find_pci_data` before its loop. -/
def initialRegister (bus dev : Byte) : ConfigurationRegister where
  enableBit := 0#32
  reserved := 0#32
  busNum := bus.setWidth 32
  devNum := dev.setWidth 32
  funcNum := 0#32
  regNum := 0#32
  bit0 := 0#32

/-- `find_pci_data`. -/
def findPciData (space : ConfigSpace) (bus dev : Byte) (pci : PciState) :
    Option PciState :=
  findPciDataFrom space bus dev pciFunctionMax 0
    ⟨initialRegister bus dev, pci.configAddress⟩ pci.list

/-- `find_pci_device`. -/
def findPciDevice (space : ConfigSpace) (pci : PciState) : Option PciState :=
  (List.range pciBusMax).foldlM
    (fun pci bus =>
      (List.range pciDeviceMax).foldlM
        (fun pci dev =>
          findPciData space (BitVec.ofNat 8 bus) (BitVec.ofNat 8 dev) pci)
        pci)
    pci

/-- `get_pci_device`; without a result the iterations do not suffice. -/
def getPciDevice (list : DeviceList) (vender device : Half) (function : Byte)
    (iterations : Nat) : Option (Option Pointer) :=
  search list.next .head
    (fun p =>
      (list.data p).vender = vender ∧ (list.data p).devid = device ∧
        (list.data p).func = function)
    iterations (list.next .head)

/-- The list before the scan. -/
def bootPci (heap : Heap) : PciState where
  configAddress := 0#32
  list :=
    { heap := heap
      data := fun _ => storedDevice 0#8 0#8 0#32 0#8 0#32 0#32 0#32
      next := fun _ => .head }

/-! ## What the registers say -/

/-- The place of a function. -/
structure Location where
  bus : BitVec 8
  dev : BitVec 5
  func : BitVec 3
  deriving DecidableEq

/-- A function answers when its first register is not all ones. -/
def Responds (space : ConfigSpace) (place : Location) : Prop :=
  space place.bus place.dev place.func 0#6 ≠ 0xffffffff#32

instance (space : ConfigSpace) : DecidablePred (Responds space) :=
  fun _ => inferInstanceAs (Decidable (_ ≠ _))

/-- Bit 7 of the header type. -/
def Multi (space : ConfigSpace) (bus : BitVec 8) (dev : BitVec 5) : Prop :=
  field (space bus dev 0#3 3#6) 23 1 = 1#1

instance (space : ConfigSpace) (bus : BitVec 8) (dev : BitVec 5) :
    Decidable (Multi space bus dev) :=
  inferInstanceAs (Decidable (_ = _))

/-- Function 0 answers whenever any function of the device does. -/
def WellFormed (space : ConfigSpace) : Prop :=
  ∀ bus dev func, Responds space ⟨bus, dev, func⟩ →
    Responds space ⟨bus, dev, 0#3⟩

/-- The fields of a device, as fields of its registers. -/
def describe (space : ConfigSpace) (place : Location) : PciDevice :=
  let register := space place.bus place.dev place.func
  { bus := place.bus
    devfn := place.dev.setWidth 8
    func := place.func.setWidth 8
    vender := field (register 0#6) 0 16
    devid := field (register 0#6) 16 16
    revid := 0#8
    pgIf := field (register 2#6) 8 8
    subClass := (field (register 2#6) 16 8).setWidth 32
    baseClass := (field (register 2#6) 24 8).setWidth 32
    headerType := (field (register 3#6) 16 7).setWidth 8
    multi := (field (register 3#6) 23 1).setWidth 8
    subVender := field (register 0xb#6) 0 16
    subDevid := field (register 0xb#6) 16 16
    baseAddress := 0#32
    interruptLine := 0#16 }

/-! ## One access -/

/-- The variable `reg` addresses the function. -/
structure Targets (reg : ConfigurationRegister) (place : Location) :
    Prop where
  reserved : reg.reserved = 0#32
  bus : reg.busNum = place.bus.setWidth 32
  dev : reg.devNum = place.dev.setWidth 32
  func : reg.funcNum = place.func.setWidth 32

/-- The word that selects a register. -/
def configWord (enable : BitVec 1) (place : Location) (number : BitVec 6) :
    Word :=
  shifted 32 enable 31 ||| shifted 32 0#7 24 ||| shifted 32 place.bus 16 |||
    shifted 32 place.dev 11 ||| shifted 32 place.func 8 |||
    shifted 32 number 2

/-- No field of the word spills into another one. -/
theorem field_configWord (enable : BitVec 1) (place : Location)
    (number : BitVec 6) :
    field (configWord enable place number) 31 1 = enable ∧
      field (configWord enable place number) 16 8 = place.bus ∧
      field (configWord enable place number) 11 5 = place.dev ∧
      field (configWord enable place number) 8 3 = place.func ∧
      field (configWord enable place number) 2 6 = number := by
  simp [configWord, field_shifted_self, field_shifted_of_disjoint]

/-- The variable `reg` is written as such a word. -/
theorem configAddress_eq {access : ConfigAccess} {place : Location}
    (targets : Targets access.reg place) {number : BitVec 6}
    (isNumber : access.reg.regNum = shifted 32 number 2) {enable : BitVec 1}
    (isEnable : access.reg.enableBit = enable.setWidth 32) :
    (writePciConfigAddress access).configAddress =
      configWord enable place number := by
  simp only [writePciConfigAddress, targets.reserved, targets.bus,
    targets.dev, targets.func, isNumber, isEnable]
  rfl

/-- A register is read from the addressed function. -/
theorem readRegister_spec (space : ConfigSpace) {access : ConfigAccess}
    {place : Location} (targets : Targets access.reg place)
    {regNum : Word} (number : BitVec 6)
    (isNumber : regNum = shifted 32 number 2) :
    (readRegister regNum space access).1 =
        space place.bus place.dev place.func number ∧
      Targets (readRegister regNum space access).2.reg place := by
  constructor
  · have address :
        (writePciConfigAddress
            { access with
              reg :=
                { access.reg with
                  enableBit := 1#32
                  regNum := regNum } }).configAddress =
          configWord 1#1 place number := by
      apply configAddress_eq
      · exact ⟨targets.reserved, targets.bus, targets.dev, targets.func⟩
      · exact isNumber
      · rfl
    rcases field_configWord 1#1 place number with
      ⟨enabled, bus, dev, func, register⟩
    change inlConfigData space _ = _
    rw [address, inlConfigData, enabled, if_pos rfl, bus, dev, func, register]
  · exact ⟨targets.reserved, targets.bus, targets.dev, targets.func⟩

section Reads

variable {place : Location} (space : ConfigSpace) (access : ConfigAccess)
  (targets : Targets access.reg place)
include targets

theorem readPciReg00_spec :
    (readPciReg00 space access).1 = space place.bus place.dev place.func 0#6 ∧
      Targets (readPciReg00 space access).2.reg place :=
  readRegister_spec space targets 0#6 rfl

theorem readPciCommandRegister_spec :
    Targets (readPciCommandRegister space access).2.reg place :=
  (readRegister_spec space targets 1#6 rfl).2

theorem readPciClass_spec :
    (readPciClass space access).1 = space place.bus place.dev place.func 2#6 ∧
      Targets (readPciClass space access).2.reg place :=
  readRegister_spec space targets 2#6 rfl

theorem readPciHeaderType_spec :
    (readPciHeaderType space access).1 =
        space place.bus place.dev place.func 3#6 ∧
      Targets (readPciHeaderType space access).2.reg place :=
  readRegister_spec space targets 3#6 rfl

theorem readPciSubSystem_spec :
    (readPciSubSystem space access).1 =
        space place.bus place.dev place.func 0xb#6 ∧
      Targets (readPciSubSystem space access).2.reg place :=
  readRegister_spec space targets 0xb#6 rfl

end Reads

/-- The variable `reg` is set to another function of the device. -/
theorem Targets.setFunc {reg : ConfigurationRegister} {bus : BitVec 8}
    {dev : BitVec 5} {func : BitVec 3}
    (targets : Targets reg ⟨bus, dev, func⟩) {i : Nat} (small : i < 8) :
    Targets { reg with funcNum := BitVec.ofNat 32 i }
      ⟨bus, dev, BitVec.ofNat 3 i⟩ where
  reserved := targets.reserved
  bus := targets.bus
  dev := targets.dev
  func := by
    apply BitVec.eq_of_toNat_eq
    simp only [BitVec.toNat_ofNat, BitVec.toNat_setWidth]
    omega

end MagicalOs.Devices.Pci
