import MagicalOs.Boot.ProtectedMode
import MagicalOs.Library.Handshake

/-!
# From the boot sector to the kernel

The BIOS and the keyboard controller work in their own time: calls for sectors
fail and are repeated, and the controller takes a byte whenever it likes.  The
boot sector hands over to the kernel nevertheless, with nothing lost on the way.
-/

namespace MagicalOs.Boot.Handover

open MagicalOs.Library.BoundedLoops
open MagicalOs.Library.ByteMemory
open MagicalOs.Library.ByteMemory.Memory
open MagicalOs.Library.FloppyDisk
open MagicalOs.Library.Handshake
open MagicalOs.Library.Handshake.Access
open MagicalOs.Library.HeldBytes
open MagicalOs.Library.InterruptController
open MagicalOs.Library.PortBus
open MagicalOs.Kernel.Descriptors
open MagicalOs.Kernel.Descriptors.SegmentDescriptor
open MagicalOs.Kernel.InterruptDelivery
open MagicalOs.Boot.Loader
open MagicalOs.Boot.BootSector
open MagicalOs.Boot.ProtectedMode

variable {Bios Ports : Type}

/-! ## The address line 20 -/

/-- The registers of the keyboard controller, as the boot sector uses them. -/
def keyboardAccess (bus : Bus Ports) : Access Ports (Half × Byte) where
  ask ports :=
    let status := (bus.inb 0x0064#16).run ports
    (status.1.getLsbD 1, ((bus.inb 0x0060#16).run status.2).2)
  write message ports := outb bus message.2 message.1 ports

/-- The two bytes, with the ports to which they are written. -/
def line20Messages : List (Half × Byte) :=
  [(0x0064#16, 0xd1#8), (0x0060#16, 0xdf#8)]

/-- The keyboard controller, at the other end. -/
structure KeyboardController where
  command : Option Byte
  outputPort : Byte

/-- The controller has taken a byte; `0xd1` is followed by the output port. -/
def KeyboardController.receive (controller : KeyboardController)
    (message : Half × Byte) : KeyboardController :=
  if message.1 = 0x0064#16 then
    { controller with command := some message.2 }
  else if controller.command = some 0xd1#8 then
    { command := none, outputPort := message.2 }
  else
    { controller with command := none }

section Line

variable {bus : Bus Ports} {mailbox : Ports → Mailbox (Half × Byte)}
  {ports after : Ports} {rounds : Nat}

theorem waitkbdout_eq (bus : Bus Ports) (rounds : Nat) (ports : Ports) :
    waitkbdout bus rounds ports =
      (keyboardAccess bus).waitUntilEmpty rounds ports := by
  have tested : ∀ status : Byte,
      status &&& 0x02#8 ≠ 0#8 ↔ status.getLsbD 1 = true := by decide
  induction rounds generalizing ports with
  | zero => rfl
  | succ rounds induction =>
      rw [waitkbdout, waitUntilEmpty_succ]
      simp only [tested, induction]
      rfl

/-- The boot sector delivers its two bytes by the handshake. -/
theorem openLine20_eq (bus : Bus Ports) (rounds : Nat) (ports : Ports) :
    openLine20 bus rounds ports =
      (keyboardAccess bus).deliver rounds line20Messages ports := by
  simp only [openLine20, waitkbdout_eq, deliver, line20Messages, sendAll]
  simp only [Option.bind_eq_bind, Option.bind_assoc, Option.bind_some]
  rfl

/-- Whatever the controller has received before, they open the line. -/
theorem receive_line20Messages (before : List (Half × Byte))
    (controller : KeyboardController) :
    ((before ++ line20Messages).foldl KeyboardController.receive
      controller).outputPort = 0xdf#8 := by
  rw [List.foldl_append]
  rfl

end Line

/-! ## Interrupts -/

/-- The fourth word is already a mask, since none for the mode is announced. -/
theorem maskPics_silent (pics : Pics) :
    (maskPics pics).master.Silent ∧ (maskPics pics).slave.Silent :=
  ⟨Controller.silent_of_masked rfl, Controller.silent_of_masked rfl⟩

/-! ## The whole boot sector -/

/-- The processor finds the section, in real mode. -/
structure Ready (data : Nat) (machine : Machine Bios Ports) : Prop where
  real : machine.cpu.protectedMode = false
  ds : machine.cpu.ds = { selector := 0x07c0#16, entry := none }
  data : HoldsData machine.mem data

/-- What the boot sector hands over to the kernel. -/
structure HandedOver (disk : Nat → Byte)
    (mailbox : Ports → Mailbox (Half × Byte))
    (machine after : Machine Bios Ports) : Prop where
  /-- The kernel lies at the address of the first instruction. -/
  kernel : HoldsDisk disk after.mem loadAddress sectorBytes loadSize
  entry : after.cpu.cs.base + after.cpu.ip.toNat = loadAddress
  /-- In protected mode all segments reach over the whole memory. -/
  isProtected : after.cpu.protectedMode = true
  segments : ∀ segment ∈ [after.cpu.cs, after.cpu.ds, after.cpu.es,
    after.cpu.fs, after.cpu.gs, after.cpu.ss],
    ∃ entry, segment.entry = some entry ∧ entry.base = 0#32 ∧
      entry.limit = 0xfffff#20 ∧ entry.g = 1#1
  /-- The table has been copied to the base which the processor knows. -/
  table : Holds after.mem after.cpu.gdtBase.toNat gdt
  tableSize : after.cpu.gdtLimit.toNat + 1 = gdt.length
  silent : after.pics.master.Silent ∧ after.pics.slave.Silent
  /-- The keyboard controller has lost nothing, and has opened the line. -/
  received : (mailbox after.ports).taken =
    (mailbox machine.ports).history ++ line20Messages
  lost : (mailbox after.ports).lost = (mailbox machine.ports).lost
  line20 : ∀ controller, ((mailbox after.ports).taken.foldl
    KeyboardController.receive controller).outputPort = 0xdf#8
  shown : after.shown =
    machine.shown ++ (msgWelcome ++ msgNowLoading ++ msgCompleted)

section Boot

variable {disk : Nat → Byte} {services : Services Bios} {bus : Bus Ports}
  {mailbox : Ports → Mailbox (Half × Byte)}
  {machine after : Machine Bios Ports} {mem : Memory} {data rounds : Nat}

theorem Ready.kept (ready : Ready data machine) (kept : Kept machine after) :
    Ready data after where
  real := by rw [kept.cpu, ready.real]
  ds := by rw [kept.cpu, ready.ds]
  data := ready.data.of_agreeOn
    (kept.mem.sub 0x7c00 0x200 (by omega) (by omega))

theorem Ready.loaded (ready : Ready data machine)
    (loaded : Loaded disk machine after) : Ready data after where
  real := loaded.real
  ds := loaded.ds.trans ready.ds
  data := ready.data.of_agreeOn loaded.mem

/-- A message of the section is printed as a whole. -/
theorem Ready.prints (ready : Ready data machine)
    (behaved : WellBehaved disk services) {offset : Nat} {text : List Byte}
    (inside : offset + text.length < dataSection.length)
    (holds : HoldsString machine.mem (0x7c00 + data + offset) text)
    (rounds : Nat) :
    printMsg services rounds (label data offset) machine =
      if text.length < rounds then some (showAll services machine text)
      else none := by
  have fits := ready.data.fits
  have position : (label data offset).toNat = data + offset :=
    ready.data.toNat_label (by omega)
  have base : machine.cpu.ds.base = 0x7c00 := by
    rw [ready.ds]
    rfl
  apply printMsg_eq behaved
  · rw [base, position, ← Nat.add_assoc]
    exact holds
  · rw [base, position]
    omega
  · rw [base, position]
    omega
  · rw [position]
    omega

theorem Ready.prints_settles (ready : Ready data machine)
    (behaved : WellBehaved disk services) {offset : Nat} {text : List Byte}
    (inside : offset + text.length < dataSection.length)
    (holds : HoldsString machine.mem (0x7c00 + data + offset) text) :
    Settles
      (fun rounds => printMsg services rounds (label data offset) machine)
      (showAll services machine text) :=
  ⟨text.length + 1, fun rounds enough =>
    (ready.prints behaved inside holds rounds).trans (if_pos enough)⟩

theorem Ready.printed (ready : Ready data machine)
    (behaved : WellBehaved disk services) {offset : Nat} {text : List Byte}
    (inside : offset + text.length < dataSection.length)
    (holds : HoldsString machine.mem (0x7c00 + data + offset) text)
    (ran : printMsg services rounds (label data offset) machine =
      some after) :
    after = showAll services machine text := by
  rw [ready.prints behaved inside holds] at ran
  split at ran
  next =>
    cases ran
    rfl
  next => cases ran

theorem Ready.showAll (ready : Ready data machine)
    (behaved : WellBehaved disk services) (text : List Byte) :
    Ready data (showAll services machine text) :=
  ready.kept (showAll_spec behaved machine text).1

/-- The machine in front of the first message. -/
def started (services : Services Bios) (machine : Machine Bios Ports) :
    Machine Bios Ports :=
  setVideoMode services
    { machine with
      cpu := { machine.cpu with
        ds := { selector := 0x07c0#16, entry := none }
        ss := { selector := 0x0000#16, entry := none } } }

theorem started_ready (behaved : WellBehaved disk services)
    (real : machine.cpu.protectedMode = false)
    (holds : HoldsData machine.mem data) :
    Ready data (started services machine) where
  real := real
  ds := rfl
  data := holds.of_agreeOn
    ((behaved.setMode _ _ _).sub 0x7c00 0x200 (by omega) (by omega))

/-- The instructions behind the loops of the loader. -/
def finish (services : Services Bios) (bus : Bus Ports) (data rounds : Nat)
    (machine : Machine Bios Ports) : Option (Machine Bios Ports) := do
  let machine ← printMsg services rounds (label data 65) machine
  let ports ← openLine20 bus rounds machine.ports
  enterProtectedMode (label data 0) (label data 6)
    { machine with pics := maskPics machine.pics, ports := ports }

/-- What the instructions make of the machine, given the state of the ports. -/
def finished (services : Services Bios) (data : Nat)
    (machine : Machine Bios Ports) (ports : Ports) : Machine Bios Ports :=
  let printed := showAll services machine msgCompleted
  { printed with
    mem := withTable data printed.mem
    cpu := kernelProcessor
    pics := maskPics machine.pics
    ports := ports }

theorem finish_enters (behaved : WellBehaved disk services)
    (ready : Ready data machine) (ports : Ports) :
    enterProtectedMode (label data 0) (label data 6)
        { showAll services machine msgCompleted with
          pics := maskPics (showAll services machine msgCompleted).pics
          ports := ports } =
      some (finished services data machine ports) := by
  have printed := ready.showAll behaved msgCompleted
  have pics := (showAll_spec behaved machine msgCompleted).1.pics
  refine (enterProtectedMode_eq _ ?_ ?_).trans ?_
  · exact printed.real
  · exact printed.data
  · rw [finished, pics]

theorem finish_settles (behaved : WellBehaved disk services)
    (serves : Serves (keyboardAccess bus) mailbox)
    (ready : Ready data machine) :
    ∃ after, Settles
      (fun rounds => finish services bus data rounds machine) after := by
  have printed :=
    ready.prints_settles behaved (by decide) ready.data.messages.2.2
  rcases serves.deliver_settles line20Messages
    (showAll services machine msgCompleted).ports with ⟨ports, delivered⟩
  simp only [← openLine20_eq] at delivered
  refine ⟨finished services data machine ports,
    Settles.bind printed (Settles.bind delivered ?_)⟩
  rw [finish_enters behaved ready ports]
  exact Settles.pure _

theorem finish_spec (behaved : WellBehaved disk services)
    (ready : Ready data machine)
    (ran : finish services bus data rounds machine = some after) :
    ∃ ports, openLine20 bus rounds machine.ports = some ports ∧
      after = finished services data machine ports := by
  rcases Option.bind_eq_some_iff.mp ran with ⟨printed, first, rest⟩
  rcases Option.bind_eq_some_iff.mp rest with ⟨ports, opened, entered⟩
  have same :=
    ready.printed behaved (by decide) ready.data.messages.2.2 first
  subst same
  rw [finish_enters behaved ready ports] at entered
  rw [(showAll_spec behaved machine msgCompleted).1.ports] at opened
  exact ⟨ports, opened, (Option.some.inj entered).symm⟩

/-- The messages in front of the loader. -/
def greeted (services : Services Bios) (machine : Machine Bios Ports) :
    Machine Bios Ports :=
  showAll services (showAll services (started services machine) msgWelcome)
    msgNowLoading

/-- The boot sector in three parts. -/
theorem boot_eq (real : machine.cpu.protectedMode = false)
    (rounds : Nat) :
    boot services bus data rounds machine =
      (printMsg services rounds (label data 30)
        (started services machine)).bind fun machine =>
      (printMsg services rounds (label data 48) machine).bind fun machine =>
      (loadSectors services rounds machine).bind fun machine =>
      finish services bus data rounds machine := by
  simp only [boot, segment_of_real real]
  rfl

theorem boot_settles (behaved : WellBehaved disk services)
    (serves : Serves (keyboardAccess bus) mailbox)
    (real : machine.cpu.protectedMode = false)
    (holds : HoldsData machine.mem data) :
    ∃ after,
      Settles (fun rounds => boot services bus data rounds machine) after := by
  have ready := started_ready behaved real holds
  have welcomed := ready.showAll behaved msgWelcome
  have greeted := welcomed.showAll behaved msgNowLoading
  rcases loadSectors_settles behaved greeted.real with ⟨loaded, settles⟩
  have behind : Ready data loaded := by
    rcases settles.ends with ⟨rounds, ran⟩
    exact greeted.loaded (loadSectors_spec behaved greeted.real ran)
  rcases finish_settles behaved serves behind with ⟨after, finishes⟩
  refine ⟨after, ?_⟩
  simp only [boot_eq real]
  exact Settles.bind
    (ready.prints_settles behaved (by decide) ready.data.messages.1)
    (Settles.bind
      (welcomed.prints_settles behaved (by decide) welcomed.data.messages.2.1)
      (Settles.bind settles finishes))

theorem boot_spec (behaved : WellBehaved disk services)
    (real : machine.cpu.protectedMode = false)
    (holds : HoldsData machine.mem data)
    (ran : boot services bus data rounds machine = some after) :
    ∃ loaded ports, Loaded disk (greeted services machine) loaded ∧
      openLine20 bus rounds loaded.ports = some ports ∧
      after = finished services data loaded ports := by
  have ready := started_ready behaved real holds
  have welcomed := ready.showAll behaved msgWelcome
  have greeted := welcomed.showAll behaved msgNowLoading
  rw [boot_eq real] at ran
  rcases Option.bind_eq_some_iff.mp ran with ⟨first, welcome, rest⟩
  have firstPrinted :=
    ready.printed behaved (by decide) ready.data.messages.1 welcome
  subst firstPrinted
  rcases Option.bind_eq_some_iff.mp rest with ⟨second, loading, rest⟩
  have secondPrinted :=
    welcomed.printed behaved (by decide) welcomed.data.messages.2.1 loading
  subst secondPrinted
  rcases Option.bind_eq_some_iff.mp rest with ⟨loaded, sectors, finishes⟩
  have copied := loadSectors_spec behaved greeted.real sectors
  rcases finish_spec behaved (greeted.loaded copied) finishes with
    ⟨ports, opened, same⟩
  exact ⟨loaded, ports, copied, opened, same⟩

/-- The segments of the kernel are those of the whole memory. -/
theorem flat_segments : ∀ segment ∈ [kernelProcessor.cs, kernelProcessor.ds,
    kernelProcessor.es, kernelProcessor.fs, kernelProcessor.gs,
    kernelProcessor.ss],
    ∃ entry, segment.entry = some entry ∧ entry.base = 0#32 ∧
      entry.limit = 0xfffff#20 ∧ entry.g = 1#1 := by
  have code : (staticGdt 1).base = 0#32 ∧ (staticGdt 1).limit = 0xfffff#20 ∧
      (staticGdt 1).g = 1#1 := by decide
  have data : (staticGdt 2).base = 0#32 ∧ (staticGdt 2).limit = 0xfffff#20 ∧
      (staticGdt 2).g = 1#1 := by decide
  intro segment member
  rcases List.mem_cons.mp member with rfl | others
  · exact ⟨staticGdt 1, rfl, code⟩
  · have same : segment = flat 16#16 2 :=
      List.eq_of_mem_replicate (n := 5) others
    rw [same]
    exact ⟨staticGdt 2, rfl, data⟩

/-- The first instruction of the kernel is the one at its address. -/
theorem kernelProcessor_entry :
    kernelProcessor.cs.base + kernelProcessor.ip.toNat = loadAddress := by
  have base : (staticGdt 1).base.toNat = 0 := by decide
  have segment : kernelProcessor.cs.base = (staticGdt 1).base.toNat := rfl
  rw [segment, base, Nat.zero_add]
  rfl

/-- The greeting is printed before anything is loaded. -/
theorem greeted_spec (behaved : WellBehaved disk services)
    (machine : Machine Bios Ports) :
    (greeted services machine).ports = machine.ports ∧
      (greeted services machine).shown =
        machine.shown ++ (msgWelcome ++ msgNowLoading) := by
  rcases showAll_spec behaved (started services machine) msgWelcome with
    ⟨first, firstShown⟩
  rcases showAll_spec behaved
    (showAll services (started services machine) msgWelcome) msgNowLoading with
    ⟨second, secondShown⟩
  constructor
  · exact second.ports.trans first.ports
  · rw [greeted, secondShown, firstShown, List.append_assoc]
    rfl

/-- The sectors stay where they are up to the jump. -/
theorem kernel_finished (behaved : WellBehaved disk services)
    (ready : Ready data machine) (ports : Ports)
    (copied : HoldsDisk disk machine.mem loadAddress sectorBytes loadSize) :
    HoldsDisk disk (finished services data machine ports).mem loadAddress
      sectorBytes loadSize := by
  have printed := ready.showAll behaved msgCompleted
  have kept := (showAll_spec behaved machine msgCompleted).1.mem
  have place : (finished services data machine ports).mem =
      withTable data (showAll services machine msgCompleted).mem := by
    rw [finished]
  have bounds : loadAddress = 0x7e00 ∧ loadSize = 0xc200 := ⟨rfl, rfl⟩
  have untouched : AgreeOn (finished services data machine ports).mem
      (showAll services machine msgCompleted).mem loadAddress loadSize := by
    rw [place]
    apply (withTable_spec printed.data).1.agreeOn
    omega
  have same : AgreeOn (showAll services machine msgCompleted).mem machine.mem
      loadAddress loadSize := by
    apply kept.sub
    · omega
    · omega
  intro index small
  have above := Nat.le_add_right loadAddress index
  have below := Nat.add_lt_add_left small loadAddress
  rw [(untouched.trans same) _ above below]
  exact copied index small

/-- What the kernel finds when it is started. -/
theorem boot_starts (behaved : WellBehaved disk services)
    (real : machine.cpu.protectedMode = false)
    (holds : HoldsData machine.mem data)
    (ran : boot services bus data rounds machine = some after) :
    HoldsDisk disk after.mem loadAddress sectorBytes loadSize ∧
      after.cpu = kernelProcessor := by
  rcases boot_spec behaved real holds ran with
    ⟨loaded, ports, copied, _, rfl⟩
  have ready : Ready data loaded :=
    (((started_ready behaved real holds).showAll behaved
      msgWelcome).showAll behaved msgNowLoading).loaded copied
  exact ⟨kernel_finished behaved ready ports copied.copied, rfl⟩

/-- The controller gets the two bytes, behind all which have been written. -/
theorem line20_opens (serves : Serves (keyboardAccess bus) mailbox)
    {ports opened : Ports}
    (ran : openLine20 bus rounds ports = some opened) :
    (mailbox opened).taken = (mailbox ports).history ++ line20Messages ∧
      (mailbox opened).lost = (mailbox ports).lost := by
  rw [openLine20_eq] at ran
  exact (serves.deliver_spec ran).2

end Boot

/-! ## The kernel is started -/

section Start

variable {disk : Nat → Byte} {services : Services Bios} {bus : Bus Ports}
  {mailbox : Ports → Mailbox (Half × Byte)} {machine : Machine Bios Ports}
  {data : Nat}

/--
Whatever the BIOS needs before it has read a sector, and whenever the keyboard
controller takes a byte, the boot sector comes to its end.  Then the kernel is
in memory and is jumped to, in protected mode with segments of 4 GiB, while no
interrupt is delivered; the keyboard controller has lost no byte and has opened
the address line 20.
-/
theorem boot_handsOver (behaved : WellBehaved disk services)
    (serves : Serves (keyboardAccess bus) mailbox)
    (real : machine.cpu.protectedMode = false)
    (holds : HoldsData machine.mem data) :
    (∃ rounds after, boot services bus data rounds machine = some after) ∧
    ∀ rounds after, boot services bus data rounds machine = some after →
      HandedOver disk mailbox machine after := by
  constructor
  · rcases boot_settles behaved serves real holds with ⟨after, settles⟩
    rcases settles.ends with ⟨rounds, ran⟩
    exact ⟨rounds, after, ran⟩
  · intro rounds after ran
    rcases boot_spec behaved real holds ran with
      ⟨loaded, ports, copied, opened, rfl⟩
    have ready : Ready data loaded :=
      (((started_ready behaved real holds).showAll behaved
        msgWelcome).showAll behaved msgNowLoading).loaded copied
    rcases greeted_spec behaved machine with ⟨samePorts, greeting⟩
    rcases line20_opens serves opened with ⟨received, lost⟩
    have before : loaded.ports = machine.ports :=
      copied.ports.trans samePorts
    rw [before] at received lost
    exact
      { kernel := kernel_finished behaved ready ports copied.copied
        entry := kernelProcessor_entry
        isProtected := rfl
        segments := flat_segments
        table :=
          (withTable_spec (ready.showAll behaved msgCompleted).data).2
        tableSize := rfl
        silent := maskPics_silent loaded.pics
        received := received
        lost := lost
        line20 := fun controller => by
          have order : (mailbox (finished services data loaded
              ports).ports).taken =
            (mailbox machine.ports).history ++ line20Messages := received
          rw [order]
          exact receive_line20Messages _ controller
        shown := by
          have last := (showAll_spec behaved loaded msgCompleted).2
          rw [copied.shown, greeting, List.append_assoc] at last
          exact last }

/-! ## A sample -/

/-- A keyboard controller which takes a byte when its own one is read. -/
def lazyBus : Bus (Mailbox (Half × Byte)) where
  inb port mailbox :=
    if port = 0x0064#16 then
      (if mailbox.waiting.isSome then 0x02#8 else 0x00#8, mailbox)
    else
      (0x00#8, mailbox.take)
  outb value port mailbox := ((), mailbox.put (port, value))
  inw _ mailbox := (0#16, mailbox)
  outw _ _ mailbox := ((), mailbox)
  wait _ mailbox := ((), mailbox)

theorem lazyBus_serves : Serves (keyboardAccess lazyBus) id where
  ask mailbox := by
    refine ⟨mailbox, .rests mailbox, ?_, .takes mailbox⟩
    change (if mailbox.waiting.isSome then 0x02#8 else 0x00#8).getLsbD 1 =
      mailbox.waiting.isSome
    cases mailbox.waiting with
    | none => rfl
    | some message =>
        have bit : (0x02#8).getLsbD 1 = true := by decide
        exact bit
  write message mailbox := ⟨mailbox, .rests mailbox, .rests _⟩
  patient mailbox := ⟨1, rfl⟩

/-- A BIOS which fails on every second call for sectors. -/
def unsteadyServices (disk : Nat → Byte) : Services Bool where
  disk := unsteady disk
  setMode _ bios mem := (bios, mem)
  teletype _ _ bios mem := (bios, mem)

theorem unsteadyServices_behaved (disk : Nat → Byte) :
    WellBehaved disk (unsteadyServices disk) where
  disk := unsteady_conforming disk bootSector
  setMode _ _ _ := fun _ _ _ => rfl
  teletype _ _ _ _ := fun _ _ _ => rfl

/-- The boot sector has been read; the keyboard controller has a byte left. -/
def sampleMachine : Machine Bool (Mailbox (Half × Byte)) where
  mem := storeBytes (fun _ => 0#8) 0x7d90 dataSection
  cpu := { kernelProcessor with protectedMode := false }
  bios := false
  ports := { waiting := some (0x0060#16, 0xed#8), taken := [], lost := [] }
  pics := { master := resetController, slave := resetController }
  shown := []

theorem sampleMachine_holds : HoldsData sampleMachine.mem 400 where
  fits := by decide
  bytes := holds_storeBytes _ 0x7d90 dataSection

/-- Every call for sectors is repeated, and every byte waits for a round. -/
theorem sample_handsOver :
    (∃ rounds after, boot (unsteadyServices fun offset => BitVec.ofNat 8 offset)
        lazyBus 400 rounds sampleMachine = some after) ∧
    ∀ rounds after, boot (unsteadyServices fun offset => BitVec.ofNat 8 offset)
        lazyBus 400 rounds sampleMachine = some after →
      HandedOver (fun offset => BitVec.ofNat 8 offset) id sampleMachine after :=
  boot_handsOver (unsteadyServices_behaved _) lazyBus_serves rfl
    sampleMachine_holds

end Start

end MagicalOs.Boot.Handover
