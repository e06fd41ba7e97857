import MagicalOs.Library.PortBus

/-!
# The ATA driver

The functions of `ata.c` that select a device, transfer a sector by programmed
I/O, and initialise the interface.  What they print is left out; where they
read the device again only to print, the reads are kept.
-/

namespace MagicalOs.Devices.Ata

open MagicalOs.Library.ByteMemory
open MagicalOs.Library.PortBus

/-! ## Registers -/

def dataRegister : Half := 0x01f0#16
def errorRegister : Half := 0x01f1#16
def featuresRegister : Half := 0x01f1#16
def sectorCountRegister : Half := 0x01f2#16
def sectorNumberRegister : Half := 0x01f3#16
def cylinderLowRegister : Half := 0x01f4#16
def cylinderHighRegister : Half := 0x01f5#16
def deviceHeadRegister : Half := 0x01f6#16
def statusRegister : Half := 0x01f7#16
def commandRegister : Half := 0x01f7#16
def alternateStatusRegister : Half := 0x03f6#16
def deviceControlRegister : Half := 0x03f6#16

def pioSectorWriteCmd : Byte := 0x30#8
def pioSectorReadCmd : Byte := 0x20#8

/-! ## Status bits -/

def bsy (data : Byte) : Bool := data >>> 7 &&& 0x01#8 ≠ 0#8

def drq (data : Byte) : Bool := data >>> 3 &&& 0x01#8 ≠ 0#8

def drdy (data : Byte) : Bool := data >>> 6 &&& 0x01#8 ≠ 0#8

def isError (data : Byte) : Bool := data &&& 0x01#8 ≠ 0#8

/-- The DF bit. -/
def df (data : Byte) : Bool := data >>> 5 &&& 0x01#8 ≠ 0#8

/-- `is_drq_active`. -/
def isDrqActive (data : Byte) : Bool := drq data

section Driver

variable {State : Type} (bus : Bus State)

/-! ## Selecting a device -/

/-- The loop of the wait functions, with the number of rounds that are left. -/
def pollLoop (done : Byte → Bool) (port : Half) : Nat → StateM State Bool
  | 0 => return false
  | rounds + 1 => do
      let data ← bus.inb port
      if done data then return true else pollLoop done port rounds

/-- `wait_until_BSY_and_DRQ_are_zero`. -/
def waitUntilBsyAndDrqAreZero (port : Half) : StateM State Bool :=
  pollLoop bus (fun data => !bsy data && !drq data) port 1000

/-- `wait_until_BSY_is_zero`. -/
def waitUntilBsyIsZero (port : Half) : StateM State Bool :=
  pollLoop bus (fun data => !bsy data) port 1000

def setDeviceNumber (device : Int) : StateM State Unit := do
  let data ← bus.inb deviceHeadRegister
  bus.outb (if device = 0 then data &&& 0x0f#8 else data ||| 0x10#8)
    deviceHeadRegister
  bus.wait 5

def doDeviceSelectionProtocol (device : Int) : StateM State Bool := do
  let ret ← waitUntilBsyAndDrqAreZero bus alternateStatusRegister
  if ret then
    setDeviceNumber bus device
    bus.wait 2
    waitUntilBsyAndDrqAreZero bus alternateStatusRegister
  else
    return false

/-- `print_error_register`, without what it prints. -/
def printErrorRegister (device : Int) : StateM State Unit := do
  let selected ← doDeviceSelectionProtocol bus device
  if selected then
    let _ ← bus.inb errorRegister
    return ()
  else
    return ()

/-- The loop of `wait_until_device_is_ready`. -/
def readyLoop (device : Int) : Nat → StateM State Bool
  | 0 => return false
  | rounds + 1 => do
      let b ← doDeviceSelectionProtocol bus device
      if b then
        return true
      else
        bus.wait 5
        readyLoop device rounds

def waitUntilDeviceIsReady (device : Int) : StateM State Bool :=
  readyLoop bus device 5

/-! ## Transferring a sector -/

/--
The label `read_status_register_again`, with the number of reads that are left
until `loop` exceeds its bound.
-/
def readStatusRegisterAgain (device : Int) : Nat → StateM State Bool
  | 0 => return false
  | reads + 1 => do
      let status ← bus.inb statusRegister
      if isError status then
        printErrorRegister bus device
        return false
      else if isDrqActive status then
        return true
      else
        readStatusRegisterAgain device reads

/-- The registers that `sector_rw_common` writes before the command. -/
def setSector (sector : Word) : StateM State Unit := do
  bus.outb 0x02#8 deviceControlRegister
  bus.outb 0x00#8 featuresRegister
  bus.outb (sector.setWidth 8) sectorNumberRegister
  bus.outb ((sector >>> 8).setWidth 8) cylinderLowRegister
  bus.outb ((sector >>> 16).setWidth 8) cylinderHighRegister
  bus.outb (((sector >>> 24) &&& 0x1f#32 ||| 0x40#32).setWidth 8)
    deviceHeadRegister
  bus.outb 1#8 sectorCountRegister

/-- `sector_rw_common`; the first argument is `max_logical_sector_num`. -/
def sectorRwCommon (maxLogicalSectorNum : Word) (cmd : Byte) (device : Int)
    (sector : Word) : StateM State Bool := do
  if maxLogicalSectorNum < sector then
    return false
  else
    let b ← waitUntilDeviceIsReady bus device
    if b then
      setSector bus sector
      bus.outb cmd commandRegister
      bus.wait 4
      let _ ← bus.inb alternateStatusRegister
      readStatusRegisterAgain bus device 7
    else
      return false

def finishSectorRw : StateM State Unit := do
  let _ ← bus.inb alternateStatusRegister
  let _ ← bus.inb statusRegister
  return ()

/-- The loop of `write_sector`. -/
def outWords : List Half → StateM State Unit
  | [] => return ()
  | word :: buf => do
      bus.outw word dataRegister
      outWords buf

/-- The loop of `read_sector`. -/
def inWords : Nat → StateM State (List Half)
  | 0 => return []
  | size + 1 => do
      let word ← bus.inw dataRegister
      let buf ← inWords size
      return word :: buf

/-- `write_sector`; the buffer is a list of `buf_size` words. -/
def writeSector (maxLogicalSectorNum : Word) (device : Int) (sector : Word)
    (buf : List Half) : StateM State Int := do
  let ret ←
    sectorRwCommon bus maxLogicalSectorNum pioSectorWriteCmd device sector
  if ret then
    finishSectorRw bus
    outWords bus buf
    return 0
  else
    return -1

/--
`read_sector`: the status and the buffer afterwards, or nothing where the size
of the buffer makes it hang.
-/
def readSector (maxLogicalSectorNum : Word) (device : Int) (sector : Word)
    (buf : List Half) : StateM State (Option (Int × List Half)) := do
  if buf.length ≠ 256 then
    return none
  else
    let ret ←
      sectorRwCommon bus maxLogicalSectorNum pioSectorReadCmd device sector
    if ret then
      let words ← inWords bus buf.length
      finishSectorRw bus
      return some (0, words)
    else
      return some (-1, buf)

/-! ## Initialisation -/

/-- `get_DRDY`. -/
def getDrdy : StateM State Bool := do
  let data ← bus.inb statusRegister
  return drdy data

def isDeviceFault : StateM State Bool := do
  let data ← bus.inb statusRegister
  return df data

/--
The label `read_status_register`.  It has no bound, so the number of reads is
an argument; nothing is returned when they do not suffice.
-/
def readStatusRegister (device : Int) : Nat → StateM State (Option Bool)
  | 0 => return none
  | reads + 1 => do
      let data ← bus.inb statusRegister
      if isError data then
        printErrorRegister bus device
        return some false
      else if isDrqActive data then
        return some true
      else
        readStatusRegister device reads

/--
What becomes of `do_identify_device`: it waits for data for ever, it returns
false, or it returns true, without having read the data or with them.
-/
inductive Identify where
  | waits
  | failed
  | notReady
  | identified (buf : List Half)

def doIdentifyDevice (reads : Nat) (device : Int) :
    StateM State Identify := do
  let _ ← doDeviceSelectionProtocol bus device
  let ret ← getDrdy bus
  if ret then
    bus.outb 0xec#8 commandRegister
    bus.wait 5
    let free ← waitUntilBsyIsZero bus statusRegister
    if free then
      let _ ← bus.inb alternateStatusRegister
      let asked ← readStatusRegister bus device reads
      match asked with
      | none => return .waits
      | some false => return .failed
      | some true =>
          let fault ← isDeviceFault bus
          if fault then
            return .failed
          else
            let buf ← inWords bus 256
            return .identified buf
    else
      return .failed
  else
    return .notReady

def doSoftReset (device : Int) : StateM State Unit := do
  setDeviceNumber bus device
  bus.outb 0x08#8 commandRegister
  bus.wait 5

inductive DeviceType where
  | unknown
  | ata
  | atapi

def getDeviceType (high low : Byte) : DeviceType :=
  if high = 0x0#8 ∧ low = 0x0#8 then .ata
  else if high = 0xeb#8 ∧ low = 0x14#8 then .atapi
  else .unknown

/-- The bound that is taken from the words 60 and 61 of the buffer. -/
def sectorNum (buf : List Half) : Word :=
  (buf.getD 61 0#16).setWidth 32 <<< 16 ||| (buf.getD 60 0#16).setWidth 32

/-- `max_logical_sector_num` behind `do_identify_device`. -/
def Identify.maxLogicalSectorNum (old : Word) : Identify → Word
  | .waits => old
  | .failed => old
  | .notReady => sectorNum (List.replicate 256 0#16)
  | .identified buf => sectorNum buf

/-- `initialize_common`, with `max_logical_sector_num` behind it. -/
def initializeCommon (reads : Nat) (device : Int)
    (maxLogicalSectorNum : Word) : StateM State (Identify × Word) := do
  doSoftReset bus device
  let low ← bus.inb cylinderLowRegister
  let high ← bus.inb cylinderHighRegister
  match getDeviceType high low with
  | .ata =>
      let identify ← doIdentifyDevice bus reads device
      return (identify, identify.maxLogicalSectorNum maxLogicalSectorNum)
  | .atapi => return (.failed, maxLogicalSectorNum)
  | .unknown => return (.failed, maxLogicalSectorNum)

/-- A call of `open_ATA_disk` that has returned. -/
structure Opened where
  ret : Int
  maxLogicalSectorNum : Word
  master : Identify
  slave : Option Identify

/--
`open_ATA_disk` with `initialize_ata`.  A slave that cannot be set up does not
matter to the result.
-/
def openAtaDisk (reads : Nat) (maxLogicalSectorNum : Word) :
    StateM State (Option Opened) := do
  let (master, maxLogicalSectorNum) ←
    initializeCommon bus reads 0 maxLogicalSectorNum
  match master with
  | .waits => return none
  | .failed =>
      return some { ret := -1, maxLogicalSectorNum, master, slave := none }
  | _ =>
      let (slave, maxLogicalSectorNum) ←
        initializeCommon bus reads 1 maxLogicalSectorNum
      match slave with
      | .waits => return none
      | _ =>
          return some
            { ret := 0, maxLogicalSectorNum, master, slave := some slave }

end Driver

end MagicalOs.Devices.Ata
