import MagicalOs.Devices.Ata

/-!
# ATA devices

The task file of the ATA interface, how it addresses a sector, and what a
conforming device 0 makes of the operations of the driver.

A device may be slow: while it works on a command every status says so, for as
long as it likes.  Which address it has taken, and how much of a sector has been
transferred, is the phase of its view.
-/

namespace MagicalOs.Devices.AtaDevice

open MagicalOs.Library.ByteMemory
open MagicalOs.Library.PortBus
open MagicalOs.Devices.Ata

/-! ## The task file -/

structure TaskFile where
  sectorCount : Byte
  sectorNumber : Byte
  cylinderLow : Byte
  cylinderHigh : Byte
  deviceHead : Byte
  deriving DecidableEq

namespace TaskFile

/-- A write to one of the registers; other ports do not matter. -/
def write (file : TaskFile) (value : Byte) (port : Half) : TaskFile :=
  if port = sectorCountRegister then
    { file with sectorCount := value }
  else if port = sectorNumberRegister then
    { file with sectorNumber := value }
  else if port = cylinderLowRegister then
    { file with cylinderLow := value }
  else if port = cylinderHighRegister then
    { file with cylinderHigh := value }
  else if port = deviceHeadRegister then
    { file with deviceHead := value }
  else
    file

/-- The address of a command in LBA mode. -/
def lba (file : TaskFile) : BitVec 28 :=
  file.deviceHead.extractLsb' 0 4 ++ file.cylinderHigh ++ file.cylinderLow ++
    file.sectorNumber

def lbaMode (file : TaskFile) : Bool :=
  file.deviceHead.getLsbD 6

/-- The DEV bit. -/
def dev (file : TaskFile) : Bool :=
  file.deviceHead.getLsbD 4

end TaskFile

/-- The ports that reach the task file. -/
def IsTaskFilePort (port : Half) : Prop :=
  port = sectorCountRegister ∨ port = sectorNumberRegister ∨
    port = cylinderLowRegister ∨ port = cylinderHighRegister ∨
    port = deviceHeadRegister

def IsStatusPort (port : Half) : Prop :=
  port = statusRegister ∨ port = alternateStatusRegister

/-! ## Conforming devices -/

/-- The words of a sector. -/
structure Sector where
  words : List Half
  length : words.length = 256

/-- What the device is doing. -/
inductive Phase where
  | idle
  | busy
  | readCommand (lba : BitVec 28)
  | reading (lba : BitVec 28) (sent : Nat)
  | writeCommand (lba : BitVec 28)
  | writing (lba : BitVec 28) (received : List Half)

/-- The device works on something that it has not finished. -/
def Phase.Working : Phase → Prop
  | .busy | .readCommand _ | .writeCommand _ => True
  | _ => False

/-- What matters of the state of a device. -/
structure View where
  taskFile : TaskFile
  phase : Phase
  content : BitVec 28 → Sector

/--
The statuses of a device.  While BSY is set it does not ask for data; it takes
an address below the capacity only, and rejects other ones with ERR.
-/
inductive StatusStep (capacity : Nat) : Phase → Byte → Phase → Prop where
  | idle {data : Byte} (free : bsy data = false) (quiet : drq data = false) :
      StatusStep capacity .idle data .idle
  | working {data : Byte} {phase : Phase} (working : phase.Working)
      (busy : bsy data = true) (quiet : drq data = false) :
      StatusStep capacity phase data phase
  | done {data : Byte} (free : bsy data = false) (quiet : drq data = false) :
      StatusStep capacity .busy data .idle
  | readReady {data : Byte} {lba : BitVec 28} (inside : lba.toNat < capacity)
      (free : bsy data = false) (asks : drq data = true) :
      StatusStep capacity (.readCommand lba) data (.reading lba 0)
  | readRejected {data : Byte} {lba : BitVec 28} (free : bsy data = false)
      (quiet : drq data = false) (error : isError data = true) :
      StatusStep capacity (.readCommand lba) data .idle
  | reading {data : Byte} {lba : BitVec 28} {sent : Nat}
      (free : bsy data = false) (asks : drq data = true) :
      StatusStep capacity (.reading lba sent) data (.reading lba sent)
  | writeReady {data : Byte} {lba : BitVec 28} (inside : lba.toNat < capacity)
      (free : bsy data = false) (asks : drq data = true) :
      StatusStep capacity (.writeCommand lba) data (.writing lba [])
  | writeRejected {data : Byte} {lba : BitVec 28} (free : bsy data = false)
      (quiet : drq data = false) (error : isError data = true) :
      StatusStep capacity (.writeCommand lba) data .idle
  | writing {data : Byte} {lba : BitVec 28} {received : List Half}
      (free : bsy data = false) (asks : drq data = true) :
      StatusStep capacity (.writing lba received) data (.writing lba received)

/-- The view after a word has been sent. -/
def View.sent (view : View) (lba : BitVec 28) (count : Nat) : View :=
  { view with
    phase := if count + 1 = 256 then .busy else .reading lba (count + 1) }

/-- The view after a word has been received; the last word fills the sector. -/
def View.received (view : View) (lba : BitVec 28) (words : List Half)
    (word : Half) : View :=
  if full : (words ++ [word]).length = 256 then
    { view with
      phase := .busy
      content := fun other =>
        if other = lba then ⟨words ++ [word], full⟩ else view.content other }
  else
    { view with phase := .writing lba (words ++ [word]) }

/--
A bus with a conforming device 0.  The device answers while it is selected; of
another device nothing is assumed.
-/
structure Device (State : Type) extends Bus State where
  capacity : Nat
  capacity_lt : capacity < 2 ^ 28
  view : State → View
  status : ∀ state port, IsStatusPort port →
    (view state).taskFile.dev = false →
      ∃ phase,
        StatusStep capacity (view state).phase ((inb port).run state).1 phase ∧
          view ((inb port).run state).2 = { view state with phase }
  statusOther : ∀ state port, IsStatusPort port →
    (view state).taskFile.dev = true →
      view ((inb port).run state).2 = view state
  readDeviceHead : ∀ state,
    view ((inb deviceHeadRegister).run state).2 = view state
  passTime : ∀ state usec, view ((wait usec).run state).2 = view state
  writeTaskFile : ∀ state value port, IsTaskFilePort port →
    ((view state).taskFile.dev = false → (view state).phase = .idle) →
      view ((outb value port).run state).2 =
        { view state with taskFile := (view state).taskFile.write value port }
  writeControl : ∀ state, (view state).phase = .idle →
    view ((outb 0x02#8 deviceControlRegister).run state).2 = view state
  writeFeatures : ∀ state, (view state).phase = .idle →
    view ((outb 0x00#8 featuresRegister).run state).2 = view state
  command : ∀ state, (view state).taskFile.dev = false →
    (view state).phase = .idle → (view state).taskFile.lbaMode = true →
      (view state).taskFile.sectorCount = 1#8 →
      view ((outb pioSectorReadCmd commandRegister).run state).2 =
          { view state with phase := .readCommand (view state).taskFile.lba } ∧
        view ((outb pioSectorWriteCmd commandRegister).run state).2 =
          { view state with phase := .writeCommand (view state).taskFile.lba }
  sendWord : ∀ state lba count, (view state).taskFile.dev = false →
    (view state).phase = .reading lba count → count < 256 →
      ((inw dataRegister).run state).1 =
          ((view state).content lba).words.getD count 0#16 ∧
        view ((inw dataRegister).run state).2 = (view state).sent lba count
  receiveWord : ∀ state lba words word, (view state).taskFile.dev = false →
    (view state).phase = .writing lba words → words.length < 256 →
      view ((outw word dataRegister).run state).2 =
        (view state).received lba words word

/-! ## Statuses -/

section Status

variable {capacity : Nat} {phase next : Phase} {data : Byte}
  {lba : BitVec 28}

/-- A device that is neither busy nor asks for data is idle. -/
theorem StatusStep.idle_of_quiet (step : StatusStep capacity phase data next)
    (free : bsy data = false) (quiet : drq data = false) : next = .idle := by
  cases step with
  | idle => rfl
  | working _ busy => simp [busy] at free
  | done => rfl
  | readReady _ _ asks => simp [asks] at quiet
  | readRejected => rfl
  | reading _ asks => simp [asks] at quiet
  | writeReady _ _ asks => simp [asks] at quiet
  | writeRejected => rfl
  | writing _ asks => simp [asks] at quiet

/--
A device that has taken a command in the phase `asked` asks for data in the
phase `ready`, and in no other one.
-/
def Offers (capacity : Nat) (asked ready : Phase) : Prop :=
  ∀ phase data next, phase = asked ∨ phase = ready ∨ phase = .idle →
    StatusStep capacity phase data next →
      (next = asked ∨ next = ready ∨ next = .idle) ∧
        (drq data = true → next = ready)

theorem offers_read :
    Offers capacity (.readCommand lba) (.reading lba 0) := by
  rintro phase data next phases step
  rcases phases with rfl | rfl | rfl
  · cases step with
    | working _ _ quiet => simp [quiet]
    | readReady => simp
    | readRejected _ quiet => simp [quiet]
  · cases step with
    | working working => exact working.elim
    | reading => simp
  · cases step with
    | idle _ quiet => simp [quiet]
    | working working => exact working.elim

theorem offers_write :
    Offers capacity (.writeCommand lba) (.writing lba []) := by
  rintro phase data next phases step
  rcases phases with rfl | rfl | rfl
  · cases step with
    | working _ _ quiet => simp [quiet]
    | writeReady => simp
    | writeRejected _ quiet => simp [quiet]
  · cases step with
    | working working => exact working.elim
    | writing => simp
  · cases step with
    | idle _ quiet => simp [quiet]
    | working working => exact working.elim

end Status

/-! ## The address of a sector -/

/-- The task file that `sector_rw_common` writes. -/
def sectorFile (sector : Word) : TaskFile where
  sectorCount := 1#8
  sectorNumber := sector.setWidth 8
  cylinderLow := (sector >>> 8).setWidth 8
  cylinderHigh := (sector >>> 16).setWidth 8
  deviceHead := ((sector >>> 24) &&& 0x1f#32 ||| 0x40#32).setWidth 8

section Address

variable {sector : Word}

theorem sectorFile_lbaMode : (sectorFile sector).lbaMode = true := by
  rw [TaskFile.lbaMode, sectorFile]
  simp

/-- The DEV bit of the task file is bit 28 of the sector number. -/
theorem sectorFile_dev : (sectorFile sector).dev = sector.getLsbD 28 := by
  rw [TaskFile.dev, sectorFile]
  simp

/-- The mask and the mode bit leave the address in DEVICE/HEAD alone. -/
theorem sectorFile_head :
    (sectorFile sector).deviceHead.extractLsb' 0 4 =
      sector.extractLsb' 24 4 := by
  apply BitVec.eq_of_getLsbD_eq
  intro i inside
  rw [sectorFile]
  have cases : i = 0 ∨ i = 1 ∨ i = 2 ∨ i = 3 := by
    omega
  rcases cases with rfl | rfl | rfl | rfl
  · simp
  · simp
  · simp
  · simp

/-- The address is the sector number without its four highest bits. -/
theorem sectorFile_lba : (sectorFile sector).lba = sector.setWidth 28 := by
  rw [TaskFile.lba, sectorFile_head, sectorFile]
  apply BitVec.eq_of_getLsbD_eq
  intro i inside
  simp only [BitVec.getLsbD_append, BitVec.getLsbD_setWidth,
    BitVec.getLsbD_extractLsb', BitVec.getLsbD_ushiftRight]
  grind

theorem dev_of_lt (small : sector.toNat < 2 ^ 28) :
    (sectorFile sector).dev = false := by
  rw [sectorFile_dev]
  exact Nat.testBit_lt_two_pow small

end Address

end MagicalOs.Devices.AtaDevice
