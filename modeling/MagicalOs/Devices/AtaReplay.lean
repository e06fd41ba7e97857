import MagicalOs.Devices.SectorTransfers

/-!
# Any device by its answers

The functions of the driver only see what a device answers.  So each of them
does on any device what it does on a device that gives the same answers in
turn, and what holds for all answers holds for all devices, whatever they make
of the commands and words which they receive.
-/

namespace MagicalOs.Devices.AtaReplay

open MagicalOs.Library.ByteMemory
open MagicalOs.Library.PortBus
open MagicalOs.Library.Transcripts
open MagicalOs.Devices.Ata
open MagicalOs.Devices.SectorTransfers

section Driver

variable {State : Type} (bus : Bus State)

/-! ## Selecting a device -/

theorem pollLoop_replays (done : Byte → Bool) (port : Half) (rounds : Nat) :
    Replays (pollLoop bus done port rounds) fun answers =>
      pollLoop (answering answers) done port rounds := by
  induction rounds with
  | zero => exact .pure false
  | succ rounds induction =>
      apply Replays.bind (.inb bus port)
      intro data
      exact .ite (.pure true) induction

theorem setDeviceNumber_replays (device : Int) :
    Replays (setDeviceNumber bus device) fun answers =>
      setDeviceNumber (answering answers) device := by
  apply Replays.bind (.inb bus deviceHeadRegister)
  intro data
  exact .bind (.outb bus _ deviceHeadRegister) fun _ => .wait bus 5

theorem doDeviceSelectionProtocol_replays (device : Int) :
    Replays (doDeviceSelectionProtocol bus device) fun answers =>
      doDeviceSelectionProtocol (answering answers) device := by
  have poll := pollLoop_replays bus (fun data => !bsy data && !drq data)
    alternateStatusRegister 1000
  apply Replays.bind poll
  intro ret
  apply Replays.ite
  · apply Replays.bind (setDeviceNumber_replays bus device)
    intro _
    exact .bind (.wait bus 2) fun _ => poll
  · exact .pure false

theorem printErrorRegister_replays (device : Int) :
    Replays (printErrorRegister bus device) fun answers =>
      printErrorRegister (answering answers) device := by
  apply Replays.bind (doDeviceSelectionProtocol_replays bus device)
  intro selected
  apply Replays.ite
  · exact .bind (.inb bus errorRegister) fun _ => .pure ()
  · exact .pure ()

theorem readyLoop_replays (device : Int) (attempts : Nat) :
    Replays (readyLoop bus device attempts) fun answers =>
      readyLoop (answering answers) device attempts := by
  induction attempts with
  | zero => exact .pure false
  | succ attempts induction =>
      apply Replays.bind (doDeviceSelectionProtocol_replays bus device)
      intro b
      apply Replays.ite (.pure true)
      exact .bind (.wait bus 5) fun _ => induction

/-! ## Transferring a sector -/

theorem readStatusRegisterAgain_replays (device : Int) (reads : Nat) :
    Replays (readStatusRegisterAgain bus device reads) fun answers =>
      readStatusRegisterAgain (answering answers) device reads := by
  induction reads with
  | zero => exact .pure false
  | succ reads induction =>
      apply Replays.bind (.inb bus statusRegister)
      intro status
      apply Replays.ite
      · exact .bind (printErrorRegister_replays bus device) fun _ =>
          .pure false
      · exact .ite (.pure true) induction

theorem setSector_replays (sector : Word) :
    Replays (setSector bus sector) fun answers =>
      setSector (answering answers) sector := by
  apply Replays.bind (.outb bus _ deviceControlRegister)
  intro _
  apply Replays.bind (.outb bus _ featuresRegister)
  intro _
  apply Replays.bind (.outb bus _ sectorNumberRegister)
  intro _
  apply Replays.bind (.outb bus _ cylinderLowRegister)
  intro _
  apply Replays.bind (.outb bus _ cylinderHighRegister)
  intro _
  apply Replays.bind (.outb bus _ deviceHeadRegister)
  intro _
  exact .outb bus _ sectorCountRegister

theorem sectorRwCommon_replays (maxLogicalSectorNum : Word) (cmd : Byte)
    (device : Int) (sector : Word) :
    Replays (sectorRwCommon bus maxLogicalSectorNum cmd device sector)
      fun answers =>
        sectorRwCommon (answering answers) maxLogicalSectorNum cmd device
          sector := by
  apply Replays.ite (.pure false)
  apply Replays.bind (readyLoop_replays bus device 5)
  intro b
  apply Replays.ite
  · apply Replays.bind (setSector_replays bus sector)
    intro _
    apply Replays.bind (.outb bus cmd commandRegister)
    intro _
    apply Replays.bind (.wait bus 4)
    intro _
    apply Replays.bind (.inb bus alternateStatusRegister)
    intro _
    exact readStatusRegisterAgain_replays bus device 7
  · exact .pure false

theorem finishSectorRw_replays :
    Replays (finishSectorRw bus) fun answers =>
      finishSectorRw (answering answers) := by
  apply Replays.bind (.inb bus alternateStatusRegister)
  intro _
  exact .bind (.inb bus statusRegister) fun _ => .pure ()

theorem outWords_replays (buf : List Half) :
    Replays (outWords bus buf) fun answers =>
      outWords (answering answers) buf := by
  induction buf with
  | nil => exact .pure ()
  | cons word buf induction =>
      exact .bind (.outw bus word dataRegister) fun _ => induction

theorem inWords_replays (size : Nat) :
    Replays (inWords bus size) fun answers =>
      inWords (answering answers) size := by
  induction size with
  | zero => exact .pure []
  | succ size induction =>
      apply Replays.bind (.inw bus dataRegister)
      intro word
      exact .bind induction fun buf => .pure (word :: buf)

theorem writeSector_replays (maxLogicalSectorNum : Word) (device : Int)
    (sector : Word) (buf : List Half) :
    Replays (writeSector bus maxLogicalSectorNum device sector buf)
      fun answers =>
        writeSector (answering answers) maxLogicalSectorNum device sector
          buf := by
  apply Replays.bind (sectorRwCommon_replays bus maxLogicalSectorNum
    pioSectorWriteCmd device sector)
  intro ret
  apply Replays.ite
  · apply Replays.bind (finishSectorRw_replays bus)
    intro _
    exact .bind (outWords_replays bus buf) fun _ => .pure 0
  · exact .pure (-1)

theorem readSector_replays (maxLogicalSectorNum : Word) (device : Int)
    (sector : Word) (buf : List Half) :
    Replays (readSector bus maxLogicalSectorNum device sector buf)
      fun answers =>
        readSector (answering answers) maxLogicalSectorNum device sector
          buf := by
  apply Replays.ite (.pure none)
  apply Replays.bind (sectorRwCommon_replays bus maxLogicalSectorNum
    pioSectorReadCmd device sector)
  intro ret
  apply Replays.ite
  · apply Replays.bind (inWords_replays bus buf.length)
    intro words
    exact .bind (finishSectorRw_replays bus) fun _ => .pure (some (0, words))
  · exact .pure (some (-1, buf))

/-! ## Initialisation -/

theorem readStatusRegister_replays (device : Int) (reads : Nat) :
    Replays (readStatusRegister bus device reads) fun answers =>
      readStatusRegister (answering answers) device reads := by
  induction reads with
  | zero => exact .pure none
  | succ reads induction =>
      apply Replays.bind (.inb bus statusRegister)
      intro data
      apply Replays.ite
      · exact .bind (printErrorRegister_replays bus device) fun _ =>
          .pure (some false)
      · exact .ite (.pure (some true)) induction

theorem isDeviceFault_replays :
    Replays (isDeviceFault bus) fun answers =>
      isDeviceFault (answering answers) :=
  .bind (.inb bus statusRegister) fun data => .pure (df data)

theorem doIdentifyDevice_replays (reads : Nat) (device : Int) :
    Replays (doIdentifyDevice bus reads device) fun answers =>
      doIdentifyDevice (answering answers) reads device := by
  have wait := pollLoop_replays bus (fun data => !bsy data) statusRegister
    1000
  apply Replays.bind (doDeviceSelectionProtocol_replays bus device)
  intro _
  apply Replays.bind (.bind (.inb bus statusRegister) fun data =>
    .pure (drdy data))
  intro ret
  apply Replays.ite
  · apply Replays.bind (.outb bus 0xec#8 commandRegister)
    intro _
    apply Replays.bind (.wait bus 5)
    intro _
    apply Replays.bind wait
    intro free
    apply Replays.ite
    · apply Replays.bind (.inb bus alternateStatusRegister)
      intro _
      apply Replays.bind (readStatusRegister_replays bus device reads)
      intro asked
      rcases asked with _ | _ | _
      · exact .pure Identify.waits
      · exact .pure Identify.failed
      · apply Replays.bind (isDeviceFault_replays bus)
        intro fault
        apply Replays.ite
        · exact .pure Identify.failed
        · exact .bind (inWords_replays bus 256) fun buf =>
            .pure (Identify.identified buf)
    · exact .pure Identify.failed
  · exact .pure Identify.notReady

theorem initializeCommon_replays (reads : Nat) (device : Int)
    (maxLogicalSectorNum : Word) :
    Replays (initializeCommon bus reads device maxLogicalSectorNum)
      fun answers =>
        initializeCommon (answering answers) reads device
          maxLogicalSectorNum := by
  apply Replays.bind (.bind (setDeviceNumber_replays bus device) fun _ =>
    .bind (.outb bus 0x08#8 commandRegister) fun _ => .wait bus 5)
  intro _
  apply Replays.bind (.inb bus cylinderLowRegister)
  intro low
  apply Replays.bind (.inb bus cylinderHighRegister)
  intro high
  cases getDeviceType high low with
  | ata =>
      apply Replays.bind (doIdentifyDevice_replays bus reads device)
      intro identify
      exact .pure (identify, identify.maxLogicalSectorNum maxLogicalSectorNum)
  | atapi => exact .pure (Identify.failed, maxLogicalSectorNum)
  | unknown => exact .pure (Identify.failed, maxLogicalSectorNum)

/-- The driver opens any device as one that gives its answers in turn. -/
theorem openAtaDisk_replays (reads : Nat) (maxLogicalSectorNum : Word) :
    Replays (openAtaDisk bus reads maxLogicalSectorNum) fun answers =>
      openAtaDisk (answering answers) reads maxLogicalSectorNum := by
  apply Replays.bind
    (initializeCommon_replays bus reads 0 maxLogicalSectorNum)
  rintro ⟨master, bound⟩
  cases master with
  | waits => exact .pure none
  | failed => exact .pure _
  | notReady | identified =>
      apply Replays.bind (initializeCommon_replays bus reads 1 bound)
      rintro ⟨slave, final⟩
      cases slave with
      | waits => exact .pure none
      | failed | notReady | identified => exact .pure _

/-! ## Results for any device -/

/--
What `write_sector` returns on any device, and the status which the device
presents behind the words, are those of a device that answers in turn.
-/
theorem writeSector_anyDevice (state : State) (maxLogicalSectorNum : Word)
    (device : Int) (sector : Word) (buf : List Half) :
    ∃ answers,
      ((writeSector (answering answers) maxLogicalSectorNum device sector
          buf).run []).1 =
        ((writeSector bus maxLogicalSectorNum device sector buf).run
          state).1 ∧
      presented answers
          ((writeSector (answering answers) maxLogicalSectorNum device sector
            buf).run []).2 =
        ((bus.inb statusRegister).run
          ((writeSector bus maxLogicalSectorNum device sector buf).run
            state).2).1 := by
  have both := Replays.bind
    (writeSector_replays bus maxLogicalSectorNum device sector buf) fun ret =>
      .bind (.inb bus statusRegister) fun status => .pure (ret, status)
  rcases both.exists_answers state with ⟨answers, same⟩
  exact ⟨answers, congrArg Prod.fst same, congrArg Prod.snd same⟩

end Driver

end MagicalOs.Devices.AtaReplay
