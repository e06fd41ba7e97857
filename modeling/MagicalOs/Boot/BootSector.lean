import MagicalOs.Boot.Loader
import MagicalOs.Kernel.InterruptDelivery
import MagicalOs.Library.BoundedLoops
import MagicalOs.Library.HeldBytes
import MagicalOs.Library.PortBus

/-!
# The boot sector

The boot sector prints its messages, loads the kernel, masks the interrupts and
opens the address line 20 by a command to the keyboard controller.  It copies a
table of three descriptors, switches to protected mode and jumps to the kernel.

The services of the BIOS keep the registers, apart from those which return
something.  They leave the direction flag clear, as the string instructions
expect it, and leave alone the boot sector and what it loads.
-/

namespace MagicalOs.Boot.BootSector

open MagicalOs.Library.BoundedLoops
open MagicalOs.Library.ByteMemory
open MagicalOs.Library.ByteMemory.Memory
open MagicalOs.Library.FloppyDisk
open MagicalOs.Library.HeldBytes
open MagicalOs.Library.PortBus
open MagicalOs.Kernel.Descriptors
open MagicalOs.Kernel.Descriptors.SegmentDescriptor
open MagicalOs.Kernel.MachineState
open MagicalOs.Kernel.InterruptDelivery
open MagicalOs.Boot.Loader

/-! ## The machine -/

/-- A segment register, with the descriptor read in protected mode. -/
structure Segment where
  selector : Half
  entry : Option SegmentDescriptor

/-- In real mode the selector alone says where a segment begins. -/
def Segment.base (segment : Segment) : Nat :=
  match segment.entry with
  | none => segment.selector.toNat * 16
  | some entry => entry.base.toNat

structure Processor where
  cs : Segment
  ds : Segment
  es : Segment
  fs : Segment
  gs : Segment
  ss : Segment
  gdtLimit : Half
  gdtBase : Word
  /-- The bit `PE` of `cr0`. -/
  protectedMode : Bool
  ip : Word

/-- A table entry, the lower word first. -/
def load64 (mem : Memory) (address : Nat) : SegmentDescriptor :=
  mem.load32 (address + 4) ++ mem.load32 address

/-- A present segment of level 0 with a type. -/
def IsSegment (type : BitVec 4) (entry : SegmentDescriptor) : Prop :=
  entry.s = 1#1 ∧ entry.p = 1#1 ∧ entry.dpl = 0#2 ∧ entry.type = type

instance (type : BitVec 4) (entry : SegmentDescriptor) :
    Decidable (IsSegment type entry) :=
  inferInstanceAs (Decidable (_ ∧ _ ∧ _ ∧ _))

/-- The type of a segment which can be executed and read. -/
def codeType : BitVec 4 := 0xa#4

/-- The type of a segment which can be read and written. -/
def dataType : BitVec 4 := 0x2#4

/--
What a segment register holds once a value is moved to it; in protected mode a
value without a descriptor of the type is a fault.
-/
def Processor.segment (cpu : Processor) (mem : Memory) (type : BitVec 4)
    (value : Half) : Option Segment :=
  if cpu.protectedMode then
    let offset := value.toNat / 8 * 8
    let entry := load64 mem (cpu.gdtBase.toNat + offset)
    if offset + 7 ≤ cpu.gdtLimit.toNat ∧ IsSegment type entry then
      some { selector := value, entry := some entry }
    else
      none
  else
    some { selector := value, entry := none }

/-- The processor, what the BIOS and the devices keep, and what is shown. -/
structure Machine (Bios Ports : Type) where
  mem : Memory
  cpu : Processor
  bios : Bios
  ports : Ports
  pics : Pics
  shown : List Byte

/-- The services of the BIOS which the boot sector calls. -/
structure Services (Bios : Type) where
  /-- `int $0x13` with `AH = 0x02`. -/
  disk : Firmware Bios
  /-- `int $0x10` with `AH = 0x00`. -/
  setMode : Byte → Bios → Memory → Bios × Memory
  /-- `int $0x10` with `AH = 0x0e`. -/
  teletype : Byte → Half → Bios → Memory → Bios × Memory

variable {Bios Ports : Type}

/-! ## The instructions -/

/-- The video mode 3, which clears the screen. -/
def setVideoMode (services : Services Bios) (machine : Machine Bios Ports) :
    Machine Bios Ports :=
  let answer := services.setMode 0x03#8 machine.bios machine.mem
  { machine with bios := answer.1, mem := answer.2 }

/-- The call at the end of a round of `print_msg`. -/
def teletype (services : Services Bios) (machine : Machine Bios Ports)
    (al : Byte) : Machine Bios Ports :=
  let answer := services.teletype al 7#16 machine.bios machine.mem
  { machine with
    bios := answer.1
    mem := answer.2
    shown := machine.shown ++ [al] }

/-- `print_msg`, given `si`. -/
def printMsg (services : Services Bios) :
    (rounds : Nat) → (si : Half) → Machine Bios Ports →
      Option (Machine Bios Ports)
  | 0, _, _ => none
  | rounds + 1, si, machine =>
      let al := machine.mem (machine.cpu.ds.base + si.toNat)
      if al = 0#8 then
        some machine
      else
        printMsg services rounds (si + 1#16) (teletype services machine al)

/-- The loops of the loader; the last one leaves its segment in `es`. -/
def loadSectors (services : Services Bios) (rounds : Nat)
    (machine : Machine Bios Ports) : Option (Machine Bios Ports) := do
  let (bios, mem) ← load services.disk rounds machine.bios machine.mem
  let es ← machine.cpu.segment mem dataType 0x1000#16
  return { machine with
    bios := bios
    mem := mem
    cpu := { machine.cpu with es := es } }

/-- The initialization of both interrupt controllers. -/
def maskPics (pics : Pics) : Pics :=
  pics.outbPs
    [⟨0x10#8, 0x0020#16⟩, ⟨0x00#8, 0x0021#16⟩, ⟨0x04#8, 0x0021#16⟩,
      ⟨0x01#8, 0x0021#16⟩, ⟨0xff#8, 0x0021#16⟩,
      ⟨0x10#8, 0x00a0#16⟩, ⟨0x00#8, 0x00a1#16⟩, ⟨0x02#8, 0x00a1#16⟩,
      ⟨0x01#8, 0x00a1#16⟩, ⟨0xff#8, 0x00a1#16⟩]

/--
`waitkbdout`: the second `inb` overwrites the register with the status, but not
the flags, and so takes a byte from the keyboard in every round.
-/
def waitkbdout (bus : Bus Ports) : (rounds : Nat) → Ports → Option Ports
  | 0, _ => none
  | rounds + 1, ports =>
      let status := (bus.inb 0x0064#16).run ports
      let notZero := status.1 &&& 0x02#8 ≠ 0#8
      let data := (bus.inb 0x0060#16).run status.2
      if notZero then
        waitkbdout bus rounds data.2
      else
        some data.2

def outb (bus : Bus Ports) (value : Byte) (port : Half) (ports : Ports) :
    Ports :=
  ((bus.outb value port).run ports).2

/-- The command to the keyboard controller, with its byte. -/
def openLine20 (bus : Bus Ports) (rounds : Nat) (ports : Ports) :
    Option Ports := do
  let ports ← waitkbdout bus rounds ports
  let ports := outb bus 0xd1#8 0x0064#16 ports
  let ports ← waitkbdout bus rounds ports
  let ports := outb bus 0xdf#8 0x0060#16 ports
  waitkbdout bus rounds ports

/-- `rep movsw`, from one segment to another. -/
def repMovsw (source target : Nat) :
    (cx : Nat) → (si di : Half) → Memory → Memory
  | 0, _, _, mem => mem
  | cx + 1, si, di, mem =>
      repMovsw source target cx (si + 2#16) (di + 2#16)
        (mem.store16 (target + di.toNat) (mem.load16 (source + si.toNat)))

/-- `lgdtw`, which takes three bytes of the base. -/
def lgdtw (cpu : Processor) (mem : Memory) (offset : Half) : Processor :=
  let address := cpu.ds.base + offset.toNat
  { cpu with
    gdtLimit := mem.load16 address
    gdtBase := mem.load32 (address + 2) &&& 0x00ffffff#32 }

/-- `lmsw` switches to protected mode, but not back. -/
def lmsw (cpu : Processor) (value : Half) : Processor :=
  { cpu with protectedMode := cpu.protectedMode || value.getLsbD 0 }

/-- The instructions behind the last `waitkbdout`. -/
def enterProtectedMode (gdtDescr gdt : Half) (machine : Machine Bios Ports) :
    Option (Machine Bios Ports) := do
  let cpu := machine.cpu
  let mem := machine.mem
  let ds ← cpu.segment mem dataType 0x07c0#16
  let es ← cpu.segment mem dataType 0x9000#16
  let mem := repMovsw ds.base es.base 12 gdt 0#16 mem
  let cpu := lgdtw { cpu with ds := ds, es := es } mem gdtDescr
  let cpu := lmsw cpu 0x0001#16
  let segment ← cpu.segment mem dataType (2#16 * 8#16)
  let cs ← cpu.segment mem codeType 8#16
  return { machine with
    mem := mem
    cpu := { cpu with
      ds := segment
      es := segment
      fs := segment
      gs := segment
      ss := segment
      cs := cs
      ip := 0x7e00#32 } }

/-! ## The data of the boot sector -/

def ascii (c : Char) : Byte :=
  BitVec.ofNat 8 c.toNat

def msgWelcome : List Byte :=
  ['W', 'e', 'l', 'c', 'o', 'm', 'e', ' ', 't', 'o', ' ', 'O', 'S', '5',
    '!'].map ascii ++ [13#8, 10#8]

def msgNowLoading : List Byte :=
  ['N', 'o', 'w', ' ', 'L', 'o', 'a', 'd', 'i', 'n', 'g', ' ', '.', '.', '.',
    ' '].map ascii

def msgCompleted : List Byte :=
  ['C', 'o', 'm', 'p', 'l', 'e', 't', 'e', 'd', '!'].map ascii ++
    [13#8, 10#8]

/-- The limit of the table, and its base in the words of `gdt_descr`. -/
def gdtDescr : List Byte :=
  [0x17#8, 0x00#8, 0x00#8, 0x00#8, 0x09#8, 0x00#8]

/-- The three descriptors of `gdt`. -/
def gdt : List Byte :=
  [0x00#8, 0x00#8, 0x00#8, 0x00#8, 0x00#8, 0x00#8, 0x00#8, 0x00#8,
    0xff#8, 0xff#8, 0x00#8, 0x00#8, 0x00#8, 0x9a#8, 0xcf#8, 0x00#8,
    0xff#8, 0xff#8, 0x00#8, 0x00#8, 0x00#8, 0x92#8, 0xcf#8, 0x00#8]

/-- The section `.data`, in the order of its labels. -/
def dataSection : List Byte :=
  gdtDescr ++ (gdt ++ ((msgWelcome ++ [0#8]) ++ ((msgNowLoading ++ [0#8]) ++
    (msgCompleted ++ [0#8]))))

/-- A label of the section, given where the section begins. -/
def label (data offset : Nat) : Half :=
  BitVec.ofNat 16 (data + offset)

/-! ## The boot sector -/

/-- `boot.s`, from its first instruction to the jump at its end. -/
def boot (services : Services Bios) (bus : Bus Ports) (data rounds : Nat)
    (machine : Machine Bios Ports) : Option (Machine Bios Ports) := do
  let ds ← machine.cpu.segment machine.mem dataType 0x07c0#16
  let ss ← machine.cpu.segment machine.mem dataType 0x0000#16
  let machine := { machine with cpu := { machine.cpu with ds := ds, ss := ss } }
  let machine := setVideoMode services machine
  let machine ← printMsg services rounds (label data 30) machine
  let machine ← printMsg services rounds (label data 48) machine
  let machine ← loadSectors services rounds machine
  let machine ← printMsg services rounds (label data 65) machine
  let ports ← openLine20 bus rounds machine.ports
  enterProtectedMode (label data 0) (label data 6)
    { machine with pics := maskPics machine.pics, ports := ports }

/-! ## Messages -/

/-- A BIOS whose services leave alone the boot sector and what it loads. -/
structure WellBehaved (disk : Nat → Byte) (services : Services Bios) :
    Prop where
  disk : Conforming floppy disk bootSector services.disk
  setMode : ∀ al bios mem,
    AgreeOn (services.setMode al bios mem).2 mem 0x7c00 0xc400
  teletype : ∀ al bx bios mem,
    AgreeOn (services.teletype al bx bios mem).2 mem 0x7c00 0xc400

/-- The section lies in the boot sector. -/
structure HoldsData (mem : Memory) (data : Nat) : Prop where
  fits : data + dataSection.length ≤ 510
  bytes : Holds mem (0x7c00 + data) dataSection

/-- Nothing has changed but what the BIOS may change. -/
structure Kept (machine after : Machine Bios Ports) : Prop where
  mem : AgreeOn after.mem machine.mem 0x7c00 0xc400
  cpu : after.cpu = machine.cpu
  ports : after.ports = machine.ports
  pics : after.pics = machine.pics

/-- The characters are handed to the BIOS, one after the other. -/
def showAll (services : Services Bios) (machine : Machine Bios Ports)
    (text : List Byte) : Machine Bios Ports :=
  text.foldl (teletype services) machine

section Messages

variable {disk : Nat → Byte} {services : Services Bios}
  {machine after : Machine Bios Ports} {mem other : Memory} {data : Nat}
  {text : List Byte} {si : Half} {rounds : Nat}

theorem Kept.refl (machine : Machine Bios Ports) : Kept machine machine where
  mem := fun _ _ _ => rfl
  cpu := rfl
  ports := rfl
  pics := rfl

theorem kept_teletype (behaved : WellBehaved disk services)
    (kept : Kept machine after) (al : Byte) :
    Kept machine (teletype services after al) where
  mem := (behaved.teletype al 7#16 after.bios after.mem).trans kept.mem
  cpu := kept.cpu
  ports := kept.ports
  pics := kept.pics

theorem showAll_spec (behaved : WellBehaved disk services)
    (machine : Machine Bios Ports) (text : List Byte) :
    Kept machine (showAll services machine text) ∧
      (showAll services machine text).shown = machine.shown ++ text := by
  induction text using List.reverseRecOn with
  | nil => exact ⟨Kept.refl machine, (List.append_nil _).symm⟩
  | append_singleton text al induction =>
      rcases induction with ⟨kept, shown⟩
      rw [showAll, List.foldl_append]
      constructor
      · exact kept_teletype behaved kept al
      · rw [← List.append_assoc, ← shown]
        rfl

theorem HoldsData.of_agreeOn (holds : HoldsData mem data)
    (agree : AgreeOn other mem 0x7c00 0x200) : HoldsData other data where
  fits := holds.fits
  bytes := by
    have fits := holds.fits
    apply holds_iff_getElem.mpr
    intro index inside
    rw [agree (0x7c00 + data + index) (by omega) (by omega)]
    exact holds.bytes.getElem inside

/-- The parts of the section which the last instructions use. -/
theorem HoldsData.table (holds : HoldsData mem data) :
    Holds mem (0x7c00 + data) gdtDescr ∧ Holds mem (0x7c00 + data + 6) gdt := by
  rcases holds_append.mp holds.bytes with ⟨descr, rest⟩
  exact ⟨descr, (holds_append.mp rest).1⟩

theorem HoldsData.toNat_label (holds : HoldsData mem data) {offset : Nat}
    (inside : offset < dataSection.length) :
    (label data offset).toNat = data + offset := by
  have fits := holds.fits
  exact Nat.mod_eq_of_lt (by omega)

/-- The three messages lie behind the table. -/
theorem HoldsData.messages (holds : HoldsData mem data) :
    HoldsString mem (0x7c00 + data + 30) msgWelcome ∧
      HoldsString mem (0x7c00 + data + 48) msgNowLoading ∧
      HoldsString mem (0x7c00 + data + 65) msgCompleted := by
  rcases holds_append.mp holds.bytes with ⟨_, behindDescr⟩
  rcases holds_append.mp behindDescr with ⟨_, behindTable⟩
  rcases holds_append.mp behindTable with ⟨welcome, behindWelcome⟩
  rcases holds_append.mp behindWelcome with ⟨nowLoading, completed⟩
  exact ⟨holdsString_of_holds (by decide) welcome,
    holdsString_of_holds (by decide) nowLoading,
    holdsString_of_holds (by decide) completed⟩

/-- What the loop prints is known from the string alone. -/
theorem printMsg_eq (behaved : WellBehaved disk services)
    (holds : HoldsString machine.mem (machine.cpu.ds.base + si.toNat) text)
    (above : 0x7c00 ≤ machine.cpu.ds.base + si.toNat)
    (below : machine.cpu.ds.base + si.toNat + text.length < 0x14000)
    (inSegment : si.toNat + text.length < 65536) (rounds : Nat) :
    printMsg services rounds si machine =
      if text.length < rounds then some (showAll services machine text)
      else none := by
  induction text generalizing machine si rounds with
  | nil =>
      cases rounds with
      | zero => rfl
      | succ rounds =>
          have enough : ([] : List Byte).length < rounds + 1 :=
            Nat.succ_pos rounds
          rw [printMsg, if_pos holds.nil, if_pos enough]
          rfl
  | cons al rest induction =>
      cases rounds with
      | zero => rfl
      | succ rounds =>
          rw [List.length_cons] at below inSegment ⊢
          rcases holds.head with ⟨loaded, nonzero⟩
          have next : (si + 1#16).toNat = si.toNat + 1 :=
            BitVec.toNat_add_of_lt (Nat.lt_of_le_of_lt (by simp) inSegment)
          have kept := kept_teletype behaved (Kept.refl machine) al
          have later : HoldsString (teletype services machine al).mem
              ((teletype services machine al).cpu.ds.base +
                (si + 1#16).toNat) rest := by
            rw [kept.cpu, next, ← Nat.add_assoc]
            apply holds.tail.of_agreeOn
            intro address lower upper
            exact (kept.mem address (by omega) (by omega)).symm
          have recursive := induction later
          rw [kept.cpu, next] at recursive
          rw [printMsg, loaded, if_neg nonzero,
            recursive (by omega) (by omega) (by omega)]
          simp only [Nat.add_lt_add_iff_right]
          rfl

end Messages

/-! ## Sectors -/

section Sectors

variable {disk : Nat → Byte} {services : Services Bios}
  {machine after : Machine Bios Ports} {rounds : Nat}

/-- In real mode every value can be moved to a segment register. -/
theorem segment_of_real {cpu : Processor} (real : cpu.protectedMode = false)
    (mem : Memory) (type : BitVec 4) (value : Half) :
    cpu.segment mem type value = some { selector := value, entry := none } := by
  rw [Processor.segment, real]
  rfl

theorem load_settles (behaved : WellBehaved disk services) (bios : Bios)
    (mem : Memory) :
    ∃ loaded, Settles (fun rounds => load services.disk rounds bios mem)
      loaded := by
  rcases readAll_succeeds behaved.disk calls_chained bios mem with
    ⟨bound, last, loaded, ran⟩
  refine ⟨(last, loaded), bound, fun rounds enough => ?_⟩
  rcases Nat.exists_eq_add_of_le enough with ⟨extra, rfl⟩
  simp only [load_eq]
  exact readAll_mono extra ran

/-- The machine behind the last loop. -/
def withSectors (machine : Machine Bios Ports) (loaded : Bios × Memory) :
    Machine Bios Ports :=
  { machine with
    bios := loaded.1
    mem := loaded.2
    cpu := { machine.cpu with
      es := { selector := 0x1000#16, entry := none } } }

theorem loadSectors_eq (real : machine.cpu.protectedMode = false)
    (rounds : Nat) :
    loadSectors services rounds machine =
      (load services.disk rounds machine.bios machine.mem).bind fun loaded =>
        some (withSectors machine loaded) := by
  simp only [loadSectors, segment_of_real real]
  rfl

theorem loadSectors_settles (behaved : WellBehaved disk services)
    (real : machine.cpu.protectedMode = false) :
    ∃ after,
      Settles (fun rounds => loadSectors services rounds machine) after := by
  rcases load_settles behaved machine.bios machine.mem with ⟨loaded, settles⟩
  simp only [loadSectors_eq real]
  exact ⟨withSectors machine loaded, Settles.bind settles (Settles.pure _)⟩

/-- What the loader has done to the machine. -/
structure Loaded (disk : Nat → Byte) (machine after : Machine Bios Ports) :
    Prop where
  copied : HoldsDisk disk after.mem loadAddress sectorBytes loadSize
  mem : AgreeOn after.mem machine.mem 0x7c00 0x200
  ds : after.cpu.ds = machine.cpu.ds
  real : after.cpu.protectedMode = false
  ports : after.ports = machine.ports
  pics : after.pics = machine.pics
  shown : after.shown = machine.shown

theorem loadSectors_spec (behaved : WellBehaved disk services)
    (real : machine.cpu.protectedMode = false)
    (ran : loadSectors services rounds machine = some after) :
    Loaded disk machine after := by
  rw [loadSectors_eq real] at ran
  rcases Option.bind_eq_some_iff.mp ran with ⟨loaded, done, same⟩
  cases same
  rcases load_spec behaved.disk done with ⟨copied, frame⟩
  exact
    { copied := copied
      mem := fun address lower upper => frame address lower (.inl upper)
      ds := rfl
      real := real
      ports := rfl
      pics := rfl
      shown := rfl }

end Sectors

end MagicalOs.Boot.BootSector
