import MagicalOs.Devices.AtaDevice

/-!
# The address of a command

`sector_rw_common` selects a device in one routine and writes the top of the
sector number to the same register in another one.  What a command finds in the
task file does not depend on the answers of the device, so a bus that keeps the
values last written is put between the driver and any device.
-/

namespace MagicalOs.Devices.AtaAddressing

open MagicalOs.Library.ByteMemory
open MagicalOs.Library.PortBus
open MagicalOs.Library.Triples
open MagicalOs.Devices.Ata
open MagicalOs.Devices.AtaDevice

/-! ## Recording the task file -/

/-- A device, the values last written, and the commands with their own. -/
structure Recorded (State : Type) where
  device : State
  file : TaskFile
  commands : List (Byte × TaskFile)

/-- Let the device do something else than take a byte. -/
def aside {State Value : Type} (program : StateM State Value) :
    StateM (Recorded State) Value :=
  fun recorded =>
    let (value, device) := program.run recorded.device
    (value, { recorded with device })

/-- The bus between the driver and the device. -/
def record {State : Type} (bus : Bus State) : Bus (Recorded State) where
  inb port := aside (bus.inb port)
  outb value port recorded :=
    ((),
      { device := ((bus.outb value port).run recorded.device).2
        file := recorded.file.write value port
        commands :=
          if port = commandRegister then
            recorded.commands ++ [(value, recorded.file)]
          else
            recorded.commands })
  inw port := aside (bus.inw port)
  outw value port := aside (bus.outw value port)
  wait usec := aside (bus.wait usec)

/-- The task file addresses one sector of a device in LBA mode. -/
structure Addresses (file : TaskFile) (device : Int) (sector : Word) :
    Prop where
  lbaMode : file.lbaMode = true
  address : file.lba.toNat = sector.toNat
  dev : (if file.dev then 1 else 0) = device
  count : file.sectorCount = 1#8

/-- The task file of `sector_rw_common` addresses sectors of device 0 only. -/
theorem addresses_sectorFile_iff (device : Int) (sector : Word) :
    Addresses (sectorFile sector) device sector ↔
      device = 0 ∧ sector.toNat < 2 ^ 28 := by
  constructor
  · rintro ⟨_, address, dev, _⟩
    rw [sectorFile_lba, BitVec.toNat_setWidth] at address
    have small : sector.toNat < 2 ^ 28 := by
      rw [← address]
      exact Nat.mod_lt _ (by decide)
    rw [dev_of_lt small] at dev
    exact ⟨dev.symm, small⟩
  · rintro ⟨rfl, small⟩
    constructor
    · exact sectorFile_lbaMode
    · rw [sectorFile_lba, BitVec.toNat_setWidth]
      exact Nat.mod_eq_of_lt small
    · rw [dev_of_lt small]
      rfl
    · rfl

section Driver

variable {State : Type} (bus : Bus State)
  {commands : List (Byte × TaskFile)} {file : TaskFile}

/-! ## Programs without a command -/

/-- The program gives no command. -/
def Silent {Value : Type} (program : StateM (Recorded State) Value) : Prop :=
  ∀ commands, Triple (fun recorded => recorded.commands = commands) program
    (fun _ recorded => recorded.commands = commands)

theorem silent_aside {Value : Type} (program : StateM State Value) :
    Silent (aside program) :=
  fun _ _ same => same

theorem silent_pure {Value : Type} (value : Value) :
    Silent (pure value : StateM (Recorded State) Value) :=
  fun _ _ same => same

theorem silent_bind {Value Result : Type}
    {program : StateM (Recorded State) Value}
    {next : Value → StateM (Recorded State) Result}
    (first : Silent program) (second : ∀ value, Silent (next value)) :
    Silent (program >>= next) :=
  fun commands =>
    Triple.bind (first commands) fun value => second value commands

theorem silent_ite {Value : Type} {condition : Prop} [Decidable condition]
    {left right : StateM (Recorded State) Value}
    (whenTrue : Silent left) (whenFalse : Silent right) :
    Silent (if condition then left else right) :=
  fun commands => Triple.ite (fun _ => whenTrue commands)
    fun _ => whenFalse commands

theorem silent_outb (value : Byte) {port : Half}
    (quiet : port ≠ commandRegister) :
    Silent ((record bus).outb value port) := by
  intro commands recorded same
  exact (if_neg quiet).trans same

theorem silent_pollLoop (done : Byte → Bool) (port : Half) (rounds : Nat) :
    Silent (pollLoop (record bus) done port rounds) := by
  induction rounds with
  | zero => exact silent_pure false
  | succ rounds hypothesis =>
      refine silent_bind (silent_aside _) fun data => ?_
      exact silent_ite (silent_pure true) hypothesis

theorem silent_doDeviceSelectionProtocol (device : Int) :
    Silent (doDeviceSelectionProtocol (record bus) device) := by
  refine silent_bind (silent_pollLoop bus _ _ _) fun ret => ?_
  refine silent_ite ?_ (silent_pure false)
  refine silent_bind ?_ fun _ => ?_
  · refine silent_bind (silent_aside _) fun data => ?_
    refine silent_bind (silent_outb bus _ (by decide)) fun _ => ?_
    exact silent_aside _
  · exact silent_bind (silent_aside _) fun _ => silent_pollLoop bus _ _ _

theorem silent_waitUntilDeviceIsReady (device : Int) :
    Silent (waitUntilDeviceIsReady (record bus) device) := by
  rw [waitUntilDeviceIsReady]
  generalize 5 = rounds
  induction rounds with
  | zero => exact silent_pure false
  | succ rounds hypothesis =>
      refine silent_bind (silent_doDeviceSelectionProtocol bus device)
        fun ready => ?_
      apply silent_ite (silent_pure true)
      exact silent_bind (silent_aside _) fun _ => hypothesis

theorem silent_readStatusRegisterAgain (device : Int) (reads : Nat) :
    Silent (readStatusRegisterAgain (record bus) device reads) := by
  induction reads with
  | zero => exact silent_pure false
  | succ reads hypothesis =>
      refine silent_bind (silent_aside _) fun status => ?_
      refine silent_ite (silent_bind ?_ fun _ => silent_pure false)
        (silent_ite (silent_pure true) hypothesis)
      refine silent_bind (silent_doDeviceSelectionProtocol bus device)
        fun selected => ?_
      exact silent_ite
        (silent_bind (silent_aside _) fun _ => silent_pure ()) (silent_pure ())

/-! ## The command -/

theorem setSector_recorded (sector : Word) :
    Triple (fun recorded => recorded.commands = commands)
      (setSector (record bus) sector)
      (fun _ recorded => recorded.commands = commands ∧
        recorded.file = sectorFile sector) := by
  intro recorded same
  exact ⟨same, rfl⟩

/-- The commands that `sector_rw_common` gives, with their task files. -/
theorem sectorRwCommon_recorded (maxLogicalSectorNum : Word) (cmd : Byte)
    (device : Int) (sector : Word) :
    Triple (fun recorded => recorded.commands = [])
      (sectorRwCommon (record bus) maxLogicalSectorNum cmd device sector)
      (fun _ recorded => ∀ command ∈ recorded.commands,
        command = (cmd, sectorFile sector)) := by
  have none : ∀ recorded : Recorded State, recorded.commands = [] →
      ∀ command ∈ recorded.commands, command = (cmd, sectorFile sector) := by
    intro recorded empty command member
    rw [empty] at member
    cases member
  refine Triple.ite (fun _ => Triple.pure none) fun _ => ?_
  refine Triple.bind (silent_waitUntilDeviceIsReady bus device []) fun b => ?_
  refine Triple.ite (fun _ => ?_) fun _ => Triple.pure none
  refine Triple.seq _ (setSector_recorded bus sector) ?_
  refine Triple.seq
    (fun recorded => recorded.commands = [(cmd, sectorFile sector)]) ?_ ?_
  · rintro recorded ⟨empty, fileEq⟩
    change (if commandRegister = commandRegister then
      recorded.commands ++ [(cmd, recorded.file)]
        else recorded.commands) = _
    rw [if_pos rfl, empty, fileEq]
    rfl
  · refine Triple.weaken (silent_bind (silent_aside _) (fun _ =>
      silent_bind (silent_aside _) fun _ =>
        silent_readStatusRegisterAgain bus device 7)
          [(cmd, sectorFile sector)])
      (fun _ same => same) ?_
    intro value recorded same command member
    rw [same] at member
    exact List.mem_singleton.mp member

/--
Whatever the device answers, a command of `sector_rw_common` addresses the
sector exactly when it is meant for device 0 and the number has 28 bits.
-/
theorem command_addresses_iff (maxLogicalSectorNum : Word) (cmd : Byte)
    (device : Int) (sector : Word) (state : State) (file : TaskFile) :
    ∀ command ∈ ((sectorRwCommon (record bus) maxLogicalSectorNum cmd device
        sector).run { device := state, file, commands := [] }).2.commands,
      Addresses command.2 device sector ↔
        device = 0 ∧ sector.toNat < 2 ^ 28 := by
  intro command member
  have same := sectorRwCommon_recorded bus maxLogicalSectorNum cmd device sector
    _ rfl command member
  rw [same]
  exact addresses_sectorFile_iff device sector

end Driver

/-! ## Both devices -/

/-- A device that is always ready. -/
def readyBus : Bus Unit where
  inb _ := pure 0x50#8
  outb _ _ := pure ()
  inw _ := pure 0#16
  outw _ _ := pure ()
  wait _ := pure ()

theorem deviceZero_command :
    ∃ command, command ∈ ((sectorRwCommon (record readyBus) 100#32
        pioSectorReadCmd 0 5#32).run
          { device := (), file := sectorFile 0#32, commands := [] }).2.commands ∧
      (Addresses command.2 0 5#32 ↔
        (0 : Int) = 0 ∧ (5#32).toNat < 2 ^ 28) :=
  ⟨(pioSectorReadCmd, sectorFile 5#32), by decide +kernel,
    command_addresses_iff readyBus 100#32 pioSectorReadCmd 0 5#32 ()
      (sectorFile 0#32) _ (by decide +kernel)⟩

/-- A read of sector 5 of device 1 addresses device 0. -/
theorem deviceOne_not_addresses :
    ∃ command ∈ ((sectorRwCommon (record readyBus) 100#32 pioSectorReadCmd 1
        5#32).run
          { device := (), file := sectorFile 0#32, commands := [] }).2.commands,
      ¬Addresses command.2 1 5#32 := by
  refine ⟨(pioSectorReadCmd, sectorFile 5#32), ?_, ?_⟩
  · decide +kernel
  · intro addresses
    have dev := addresses.dev
    exact absurd dev (by decide)

end MagicalOs.Devices.AtaAddressing
