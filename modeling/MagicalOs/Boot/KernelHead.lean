import MagicalOs.Boot.Handover
import MagicalOs.Kernel.InterruptTable

/-!
# The first instructions of the kernel

The assembler has put the tables of descriptors into the image of the kernel,
with the words from which `lgdt` and `lidt` take their places.  The kernel loads
its own table of segments, points all gates of the interrupt table to one
handler and returns into `kern_init`, with a stack made for it.

From the floppy disk on, `kern_init` begins with the tables in memory on which
the models of the segments and of the interrupt table rest.
-/

namespace MagicalOs.Boot.KernelHead

open MagicalOs.Library.ByteMemory
open MagicalOs.Library.ByteMemory.Memory
open MagicalOs.Library.FloppyDisk
open MagicalOs.Library.Handshake
open MagicalOs.Library.Handshake.Access
open MagicalOs.Library.PortBus
open MagicalOs.Kernel.Descriptors
open MagicalOs.Kernel.GateDescriptors
open MagicalOs.Kernel.InterruptTable
open MagicalOs.Boot.Loader
open MagicalOs.Boot.BootSector
open MagicalOs.Boot.ProtectedMode
open MagicalOs.Boot.Handover

/-! ## The image of the kernel -/

/-- Where the linker puts the data of `sys.S`, and some of its code. -/
structure Labels where
  idtDescr : Nat
  kernInit : Word
  «end» : Word
  symbols : Symbols

namespace Labels

/-- The words behind those of the interrupt table. -/
def gdtDescr (labels : Labels) : Nat := labels.idtDescr + 6

/-- The next multiple of 8. -/
def idt (labels : Labels) : Nat := (labels.idtDescr + 12 + 7) / 8 * 8

/-- The table behind 256 gates. -/
def gdt (labels : Labels) : Nat := labels.idt + 2048

end Labels

/-- The size of `kernel.bin`, which ends with its sign. -/
def kernelSize : Nat := 0x9200

/-- What the assembler and the linker have put at the labels. -/
structure Assembled (labels : Labels) (image : Memory) : Prop where
  above : loadAddress ≤ labels.idtDescr
  below : labels.gdt + gdtSize * 8 ≤ loadAddress + kernelSize
  idtLimit : image.load16 labels.idtDescr = 0x07ff#16
  idtBase : image.load32 (labels.idtDescr + 2) = BitVec.ofNat 32 labels.idt
  gdtLimit : image.load16 labels.gdtDescr = 0x003f#16
  gdtBase : image.load32 (labels.gdtDescr + 2) = BitVec.ofNat 32 labels.gdt
  gdt : ∀ idx < gdtSize, load64 image (labels.gdt + idx * 8) = staticGdt idx

/-! ## The instructions -/

/-- The state of the processor, with its stack and its interrupt table. -/
structure Core where
  mem : Memory
  cpu : Processor
  esp : Word
  idtLimit : Half
  idtBase : Word

namespace Core

def lgdt (core : Core) (address : Nat) : Core :=
  { core with
    cpu := { core.cpu with
      gdtLimit := core.mem.load16 address
      gdtBase := core.mem.load32 (address + 2) } }

def lidt (core : Core) (address : Nat) : Core :=
  { core with
    idtLimit := core.mem.load16 address
    idtBase := core.mem.load32 (address + 2) }

def pushl (core : Core) (value : Word) : Core :=
  { core with
    esp := core.esp - 4#32
    mem := core.mem.store32 (core.esp - 4#32).toNat value }

def ret (core : Core) : Core :=
  { core with
    esp := core.esp + 4#32
    cpu := { core.cpu with ip := core.mem.load32 core.esp.toNat } }

end Core

/-- The loop at `rp_sidt`, on the memory. -/
def rpSidtStores (eax edx : Word) : (ecx : Nat) → (edi : Nat) → Memory → Memory
  | 0, _, mem => mem
  | ecx + 1, edi, mem =>
      let mem := mem.store32 edi eax
      let mem := mem.store32 (edi + 4) edx
      rpSidtStores eax edx ecx (edi + 8) mem

/-- The loop, with the instructions which set its registers. -/
def fillGates (labels : Labels) (mem : Memory) : Memory :=
  let edx := labels.symbols .ignoreInt
  let eax := movw 0x00080000#32 (edx.setWidth 16)
  let edx := movw edx 0x8e00#16
  rpSidtStores eax edx 256 labels.idt mem

/-- `sys.S`, up to the `ret` into `kern_init`. -/
def kernelHead (labels : Labels) (core : Core) : Core :=
  let core := { core with esp := 0x00080000#32 }
  let core := core.lgdt labels.gdtDescr
  let core := { core with mem := fillGates labels core.mem }
  let core := core.lidt labels.idtDescr
  let core := core.pushl 0#32
  let core := core.pushl 0#32
  let core := core.pushl 0#32
  let core := core.pushl labels.end
  let core := core.pushl labels.kernInit
  core.ret

/-! ## The interrupt table in memory -/

/-- The words of the table which lies at an address. -/
def words (mem : Memory) (address : Nat) : InterruptTable :=
  fun word => mem.load32 (address + word * 4)

section Gates

variable {mem : Memory} {address : Nat}

theorem load32_of_store32 {other place : Nat} (value : Word)
    (apart : other + 4 ≤ place ∨ place + 4 ≤ other) :
    (mem.store32 place value).load32 other = mem.load32 other :=
  ((store32_agreeOutside mem place value).agreeOn other 4 apart).load32

/-- A store of a word is an update of the table. -/
theorem words_store32 (word : Nat) (value : Word) :
    words (mem.store32 (address + word * 4) value) address =
      Function.update (words mem address) word value := by
  funext other
  by_cases same : other = word
  · subst same
    rw [Function.update_self]
    exact load32_store32_self mem _ value
  · rw [Function.update_of_ne same]
    exact load32_of_store32 value (by omega)

/-- The loop on the memory does what the loop on the table does. -/
theorem words_rpSidtStores (eax edx : Word) (ecx edi : Nat) (mem : Memory) :
    words (rpSidtStores eax edx ecx (address + edi * 4) mem) address =
      rpSidt eax edx ecx edi (words mem address) := by
  induction ecx generalizing edi mem with
  | zero => rfl
  | succ ecx induction =>
      have second : address + edi * 4 + 4 = address + (edi + 1) * 4 := by
        omega
      have next : address + edi * 4 + 8 = address + (edi + 2) * 4 := by omega
      rw [rpSidtStores, rpSidt, second, next, induction, words_store32,
        words_store32]

theorem rpSidtStores_agreeOutside (eax edx : Word) (ecx edi : Nat)
    (mem : Memory) :
    AgreeOutside (rpSidtStores eax edx ecx edi mem) mem edi (ecx * 8) := by
  induction ecx generalizing edi mem with
  | zero => exact fun _ _ => rfl
  | succ ecx induction =>
      rw [rpSidtStores]
      exact (((induction (edi + 8) _).mono (by omega) (by omega)).trans
        ((store32_agreeOutside _ (edi + 4) edx).mono (by omega)
          (by omega))).trans
        ((store32_agreeOutside mem edi eax).mono (by omega) (by omega))

end Gates

/-! ## The entry of `kern_init` -/

/-- The five words on the stack, the last of which is popped again. -/
def stacked (labels : Labels) (base : Nat) (mem : Memory) : Memory :=
  ((((mem.store32 (base + 16) 0#32).store32 (base + 12) 0#32).store32
    (base + 8) 0#32).store32 (base + 4) labels.end).store32 base
      labels.kernInit

/-- What `kern_init` finds. -/
structure Entered (labels : Labels) (core after : Core) : Prop where
  entry : after.cpu.ip = labels.kernInit
  /-- Three words of zero lie behind the return address. -/
  esp : after.esp = 0x0007fff0#32
  returnAddress : after.mem.load32 0x7fff0 = labels.end
  arguments : ∀ index < 3, after.mem.load32 (0x7fff4 + index * 4) = 0#32
  gdtLimit : after.cpu.gdtLimit.toNat + 1 = gdtSize * 8
  gdtBase : after.cpu.gdtBase = BitVec.ofNat 32 labels.gdt
  gdt : ∀ idx < gdtSize,
    load64 after.mem (labels.gdt + idx * 8) = staticGdt idx
  /-- The segments in use have the same entries in the new table. -/
  cached : ∀ segment ∈ [after.cpu.cs, after.cpu.ds, after.cpu.es,
    after.cpu.fs, after.cpu.gs, after.cpu.ss],
    segment.entry = some
      (load64 after.mem (labels.gdt + segment.selector.toNat / 8 * 8))
  idtLimit : after.idtLimit.toNat + 1 = 256 * 8
  idtBase : after.idtBase = BitVec.ofNat 32 labels.idt
  idt : ∀ word < 512, words after.mem labels.idt word =
    fillIdt labels.symbols (words core.mem labels.idt) word
  gates : ∀ vector, vector ≠ intrNumUser128 →
    LeadsTo labels.symbols (words after.mem labels.idt) vector .ignoreInt
  /-- Of what was loaded, nothing but the gates has changed. -/
  kept : ∀ address, loadAddress ≤ address → address < loadAddress + loadSize →
    address < labels.idt ∨ labels.gdt ≤ address →
    after.mem address = core.mem address

section Head

variable {labels : Labels} {image mem : Memory} {core : Core}

theorem fillGates_agreeOutside (labels : Labels) (mem : Memory) :
    AgreeOutside (fillGates labels mem) mem labels.idt (256 * 8) := by
  rw [fillGates]
  exact rpSidtStores_agreeOutside _ _ 256 labels.idt mem

theorem stacked_agreeOutside (labels : Labels) (base : Nat) (mem : Memory) :
    AgreeOutside (stacked labels base mem) mem base 20 := by
  intro address outside
  rw [stacked, store32_agreeOutside _ _ _ _ (by omega),
    store32_agreeOutside _ _ _ _ (by omega),
    store32_agreeOutside _ _ _ _ (by omega),
    store32_agreeOutside _ _ _ _ (by omega),
    store32_agreeOutside _ _ _ _ (by omega)]

/-- The words of the stack, from the popped one on. -/
theorem load32_stacked (labels : Labels) (base : Nat) (mem : Memory) :
    (stacked labels base mem).load32 base = labels.kernInit ∧
      (stacked labels base mem).load32 (base + 4) = labels.end ∧
      ∀ index < 3,
        (stacked labels base mem).load32 (base + 8 + index * 4) = 0#32 := by
  refine ⟨load32_store32_self _ _ _, ?_, ?_⟩
  · rw [stacked, load32_of_store32 _ (by omega), load32_store32_self]
  · intro index small
    have which : index = 0 ∨ index = 1 ∨ index = 2 := by omega
    rw [stacked, load32_of_store32 _ (by omega),
      load32_of_store32 _ (by omega)]
    rcases which with rfl | rfl | rfl
    · exact load32_store32_self _ _ _
    · rw [load32_of_store32 _ (by omega)]
      exact load32_store32_self _ _ _
    · rw [load32_of_store32 _ (by omega), load32_of_store32 _ (by omega)]
      exact load32_store32_self _ _ _

/-- The stack begins at `0x80000`, and grows by five words. -/
theorem kernelHead_mem (labels : Labels) (core : Core) :
    (kernelHead labels core).mem =
      stacked labels 0x7ffec (fillGates labels core.mem) := by
  have first : (0x00080000#32 - 4#32).toNat = 0x7ffec + 16 := by decide
  have second : (0x00080000#32 - 4#32 - 4#32).toNat = 0x7ffec + 12 := by
    decide
  have third : (0x00080000#32 - 4#32 - 4#32 - 4#32).toNat = 0x7ffec + 8 := by
    decide
  have fourth : (0x00080000#32 - 4#32 - 4#32 - 4#32 - 4#32).toNat =
      0x7ffec + 4 := by decide
  have fifth : (0x00080000#32 - 4#32 - 4#32 - 4#32 - 4#32 - 4#32).toNat =
      0x7ffec := by decide
  simp only [kernelHead, Core.ret, Core.pushl, Core.lidt, Core.lgdt, stacked,
    first, second, third, fourth, fifth]

theorem load64_of_agreeOn {left right : Memory} {address : Nat}
    (agree : AgreeOn left right address 8) :
    load64 left address = load64 right address := by
  rw [load64, load64, (agree.sub (address + 4) 4 (by omega) (by omega)).load32,
    (agree.sub address 4 (by omega) (by omega)).load32]

/-- The registers, which `lgdt`, `lidt` and `ret` read from the memory. -/
theorem kernelHead_registers (labels : Labels) (core : Core) :
    (kernelHead labels core).cpu =
        { core.cpu with
          gdtLimit := core.mem.load16 labels.gdtDescr
          gdtBase := core.mem.load32 (labels.gdtDescr + 2)
          ip := (kernelHead labels core).mem.load32 0x7ffec } ∧
      (kernelHead labels core).esp = 0x0007fff0#32 ∧
      (kernelHead labels core).idtLimit =
        (fillGates labels core.mem).load16 labels.idtDescr ∧
      (kernelHead labels core).idtBase =
        (fillGates labels core.mem).load32 (labels.idtDescr + 2) := by
  have top : (0x00080000#32 - 4#32 - 4#32 - 4#32 - 4#32 - 4#32).toNat =
      0x7ffec := by decide
  have left : 0x00080000#32 - 4#32 - 4#32 - 4#32 - 4#32 - 4#32 + 4#32 =
      0x0007fff0#32 := by decide
  constructor
  · simp only [kernelHead, Core.ret, Core.pushl, Core.lidt, Core.lgdt, top]
  · simp only [kernelHead, Core.ret, Core.pushl, Core.lidt, Core.lgdt, left,
      and_self]

/-- The places of the tables. -/
theorem Assembled.places (assembled : Assembled labels image) :
    0x7e00 ≤ labels.idtDescr ∧ labels.gdtDescr = labels.idtDescr + 6 ∧
      labels.idtDescr + 12 ≤ labels.idt ∧
      labels.gdt = labels.idt + 256 * 8 ∧ labels.gdt + 64 ≤ 0x11000 := by
  have above := assembled.above
  have below := assembled.below
  have rounded : labels.idt = (labels.idtDescr + 12 + 7) / 8 * 8 := rfl
  have behind : labels.gdt = labels.idt + 2048 := rfl
  have loaded : loadAddress = 0x7e00 ∧ kernelSize = 0x9200 ∧ gdtSize = 8 :=
    ⟨rfl, rfl, rfl⟩
  refine ⟨by omega, rfl, by omega, by omega, by omega⟩

/-- What was loaded is kept, apart from the gates. -/
theorem kernelHead_keeps (labels : Labels) (core : Core) {address : Nat}
    (below : address < 0x14000)
    (outside : address < labels.idt ∨ labels.idt + 256 * 8 ≤ address) :
    (kernelHead labels core).mem address = core.mem address := by
  rw [kernelHead_mem, stacked_agreeOutside _ _ _ _ (by omega),
    fillGates_agreeOutside _ _ _ outside]

theorem gdt_kept (assembled : Assembled labels image)
    (loaded : AgreeOn core.mem image loadAddress kernelSize) {idx : Nat}
    (small : idx < gdtSize) :
    load64 (kernelHead labels core).mem (labels.gdt + idx * 8) =
      staticGdt idx := by
  rcases assembled.places with ⟨above, _, behind, gdt, below⟩
  have sizes : loadAddress = 0x7e00 ∧ kernelSize = 0x9200 ∧ gdtSize = 8 :=
    ⟨rfl, rfl, rfl⟩
  rw [← assembled.gdt idx small]
  apply load64_of_agreeOn
  intro address lower upper
  rw [kernelHead_keeps labels core (by omega) (by omega)]
  exact loaded address (by omega) (by omega)

theorem words_fillGates (labels : Labels) (mem : Memory) :
    words (fillGates labels mem) labels.idt =
      fillIdt labels.symbols (words mem labels.idt) := by
  rw [fillGates, fillIdt]
  have filled : words (rpSidtStores
        (movw 0x00080000#32 ((labels.symbols .ignoreInt).setWidth 16))
        (movw (labels.symbols .ignoreInt) 0x8e00#16) 256
        (labels.idt + 0 * 4) mem) labels.idt = _ :=
    words_rpSidtStores _ _ 256 0 mem
  rw [Nat.zero_mul, Nat.add_zero] at filled
  exact filled

/-- The gates in memory are those of the model of the table. -/
theorem words_kernelHead (assembled : Assembled labels image) {word : Nat}
    (small : word < 512) :
    words (kernelHead labels core).mem labels.idt word =
      fillIdt labels.symbols (words core.mem labels.idt) word := by
  rcases assembled.places with ⟨_, _, _, gdt, below⟩
  have stack := (stacked_agreeOutside labels 0x7ffec
    (fillGates labels core.mem)).agreeOn (labels.idt + word * 4) 4
    (.inl (by omega))
  rw [← words_fillGates, kernelHead_mem]
  exact stack.load32

/-- Every vector but the one of the system call leads to `ignore_int`. -/
theorem leadsTo_kernelHead (assembled : Assembled labels image)
    (vector : Byte) (kernel : vector ≠ intrNumUser128) :
    LeadsTo labels.symbols (words (kernelHead labels core).mem labels.idt)
      vector .ignoreInt := by
  have small : vector.toNat < 256 := vector.isLt
  have leads : LeadsTo labels.symbols
      (fillIdt labels.symbols (words core.mem labels.idt)) vector .ignoreInt :=
    fillIdt_leadsTo kernel
  rw [LeadsTo, gate, ← words_kernelHead assembled (by omega),
    ← words_kernelHead assembled (by omega)] at leads
  exact leads

/-- The segments of the processor are found in the table of the kernel. -/
theorem kernelProcessor_cached {mem : Memory} {address : Nat}
    (gdt : ∀ idx < gdtSize, load64 mem (address + idx * 8) = staticGdt idx) :
    ∀ segment ∈ [kernelProcessor.cs, kernelProcessor.ds, kernelProcessor.es,
      kernelProcessor.fs, kernelProcessor.gs, kernelProcessor.ss],
      segment.entry = some
        (load64 mem (address + segment.selector.toNat / 8 * 8)) := by
  have code : load64 mem (address + (8#16).toNat / 8 * 8) = staticGdt 1 :=
    gdt 1 (by decide)
  have data : load64 mem (address + (16#16).toNat / 8 * 8) = staticGdt 2 :=
    gdt 2 (by decide)
  intro segment member
  rcases List.mem_cons.mp member with rfl | others
  · exact congrArg some code.symm
  · have same : segment = flat 16#16 2 :=
      List.eq_of_mem_replicate (n := 5) others
    rw [same]
    exact congrArg some data.symm

theorem kernelHead_enters (assembled : Assembled labels image)
    (loaded : AgreeOn core.mem image loadAddress kernelSize)
    (started : core.cpu = kernelProcessor) :
    Entered labels core (kernelHead labels core) := by
  rcases assembled.places with ⟨above, gdtDescr, behind, gdt, below⟩
  rcases kernelHead_registers labels core with ⟨cpu, esp, idtLimit, idtBase⟩
  rcases load32_stacked labels 0x7ffec (fillGates labels core.mem) with
    ⟨popped, returned, zeros⟩
  have sizes : loadAddress = 0x7e00 ∧ kernelSize = 0x9200 ∧
      loadSize = 0xc200 := ⟨rfl, rfl, rfl⟩
  have image16 (address : Nat) (low : 0x7e00 ≤ address)
      (high : address + 2 ≤ 0x11000) :
      core.mem.load16 address = image.load16 address :=
    (loaded.sub address 2 (by omega) (by omega)).load16
  have image32 (address : Nat) (low : 0x7e00 ≤ address)
      (high : address + 4 ≤ 0x11000) :
      core.mem.load32 address = image.load32 address :=
    (loaded.sub address 4 (by omega) (by omega)).load32
  have gates := fillGates_agreeOutside labels core.mem
  have table : ∀ idx < gdtSize, load64 (kernelHead labels core).mem
      (labels.gdt + idx * 8) = staticGdt idx :=
    fun idx small => gdt_kept assembled loaded small
  have gdtLimit : core.mem.load16 labels.gdtDescr = 0x003f#16 :=
    (image16 _ (by omega) (by omega)).trans assembled.gdtLimit
  have gdtBase : core.mem.load32 (labels.gdtDescr + 2) =
      BitVec.ofNat 32 labels.gdt :=
    (image32 _ (by omega) (by omega)).trans assembled.gdtBase
  have idtLimitHeld : (fillGates labels core.mem).load16 labels.idtDescr =
      0x07ff#16 := by
    rw [(gates.agreeOn labels.idtDescr 2 (.inl (by omega))).load16,
      image16 _ (by omega) (by omega), assembled.idtLimit]
  have idtBaseHeld : (fillGates labels core.mem).load32
      (labels.idtDescr + 2) = BitVec.ofNat 32 labels.idt := by
    rw [(gates.agreeOn (labels.idtDescr + 2) 4 (.inl (by omega))).load32,
      image32 _ (by omega) (by omega), assembled.idtBase]
  rw [started, gdtLimit, gdtBase, kernelHead_mem, popped] at cpu
  rw [idtLimitHeld] at idtLimit
  rw [idtBaseHeld] at idtBase
  constructor
  · rw [cpu]
  · exact esp
  · rw [kernelHead_mem]
    exact returned
  · rw [kernelHead_mem]
    exact zeros
  · rw [cpu]
    rfl
  · rw [cpu]
  · exact table
  · rw [cpu]
    exact kernelProcessor_cached table
  · rw [idtLimit]
    rfl
  · exact idtBase
  · exact fun word small => words_kernelHead assembled small
  · exact leadsTo_kernelHead assembled
  · intro address lower upper outside
    exact kernelHead_keeps labels core (by omega) (by omega)

end Head

/-! ## From the floppy disk -/

/-- The image of the kernel lies behind the boot sector. -/
def OnDisk (disk : Nat → Byte) (image : Memory) : Prop :=
  ∀ index < kernelSize,
    disk (sectorBytes + index) = image (loadAddress + index)

/-- The processor behind the jump, with registers nobody has set. -/
def jumped {Bios Ports : Type} (machine : Machine Bios Ports) (esp : Word)
    (idtLimit : Half) (idtBase : Word) : Core where
  mem := machine.mem
  cpu := machine.cpu
  esp := esp
  idtLimit := idtLimit
  idtBase := idtBase

section Start

variable {Bios Ports : Type} {disk : Nat → Byte} {services : Services Bios}
  {bus : Bus Ports} {mailbox : Ports → Mailbox (Half × Byte)}
  {machine : Machine Bios Ports} {data : Nat} {labels : Labels}
  {image : Memory}

theorem agreeOn_image {mem : Memory}
    (copied : HoldsDisk disk mem loadAddress sectorBytes loadSize)
    (onDisk : OnDisk disk image) :
    AgreeOn mem image loadAddress kernelSize := by
  have sizes : kernelSize = 0x9200 ∧ loadSize = 0xc200 := ⟨rfl, rfl⟩
  intro address lower upper
  rcases Nat.exists_eq_add_of_le lower with ⟨index, rfl⟩
  rw [copied index (by omega), onDisk index (by omega)]

/--
From a floppy disk with a kernel, the boot sector and the first instructions of
the kernel lead into `kern_init`, whatever the BIOS and the keyboard controller
do meanwhile.  It begins with a return address and a stack, with the table of
segments which the assembler has made, and with an interrupt table in memory
which leads to `ignore_int`; and what was loaded is as it was on the disk.
-/
theorem boot_startsKernInit (behaved : WellBehaved disk services)
    (serves : Serves (keyboardAccess bus) mailbox)
    (real : machine.cpu.protectedMode = false)
    (holds : HoldsData machine.mem data)
    (assembled : Assembled labels image) (onDisk : OnDisk disk image) :
    (∃ rounds after, boot services bus data rounds machine = some after) ∧
    ∀ rounds after, boot services bus data rounds machine = some after →
      ∀ esp idtLimit idtBase,
        Entered labels (jumped after esp idtLimit idtBase)
            (kernelHead labels (jumped after esp idtLimit idtBase)) ∧
          ∀ index < loadSize, loadAddress + index < labels.idt ∨
              labels.gdt ≤ loadAddress + index →
            (kernelHead labels (jumped after esp idtLimit idtBase)).mem
                (loadAddress + index) = disk (sectorBytes + index) := by
  constructor
  · rcases boot_settles behaved serves real holds with ⟨after, settles⟩
    rcases settles.ends with ⟨rounds, ran⟩
    exact ⟨rounds, after, ran⟩
  · intro rounds after ran esp idtLimit idtBase
    rcases boot_starts behaved real holds ran with ⟨copied, started⟩
    have enters : Entered labels (jumped after esp idtLimit idtBase)
        (kernelHead labels (jumped after esp idtLimit idtBase)) :=
      kernelHead_enters assembled (agreeOn_image copied onDisk) started
    refine ⟨enters, fun index small outside => ?_⟩
    have kept := enters.kept (loadAddress + index) (Nat.le_add_right _ _)
      (Nat.add_lt_add_left small _) outside
    exact kept.trans (copied index small)

/-! ## A sample -/

def sampleLabels : Labels where
  idtDescr := 0x10000
  kernInit := 0x9000#32
  «end» := 0x7e40#32
  symbols _ := 0x8000#32

/-- The memory with a table entry. -/
def store64 (mem : Memory) (address : Nat) (entry : SegmentDescriptor) :
    Memory :=
  (mem.store32 address (entry.setWidth 32)).store32 (address + 4)
    ((entry >>> 32).setWidth 32)

/-- A kernel with its data at the end. -/
def sampleImage : Memory :=
  let mem : Memory := fun _ => 0#8
  let mem := mem.store16 0x10000 0x07ff#16
  let mem := mem.store32 0x10002 0x10010#32
  let mem := mem.store16 0x10006 0x003f#16
  let mem := mem.store32 0x10008 0x10810#32
  (List.range gdtSize).foldl
    (fun mem idx => store64 mem (0x10810 + idx * 8) (staticGdt idx)) mem

theorem sampleImage_assembled : Assembled sampleLabels sampleImage where
  above := by decide
  below := by decide
  idtLimit := by decide +kernel
  idtBase := by decide +kernel
  gdtLimit := by decide +kernel
  gdtBase := by decide +kernel
  gdt := by decide +kernel

def sampleDisk (offset : Nat) : Byte :=
  sampleImage (loadAddress + (offset - sectorBytes))

theorem sampleDisk_onDisk : OnDisk sampleDisk sampleImage := by
  intro index _
  rw [sampleDisk, Nat.add_sub_cancel_left]

theorem sample_startsKernInit :
    (∃ rounds after, boot (unsteadyServices sampleDisk) lazyBus 400 rounds
        sampleMachine = some after) ∧
    ∀ rounds after, boot (unsteadyServices sampleDisk) lazyBus 400 rounds
        sampleMachine = some after →
      ∀ esp idtLimit idtBase,
        Entered sampleLabels (jumped after esp idtLimit idtBase)
            (kernelHead sampleLabels (jumped after esp idtLimit idtBase)) ∧
          ∀ index < loadSize, loadAddress + index < sampleLabels.idt ∨
              sampleLabels.gdt ≤ loadAddress + index →
            (kernelHead sampleLabels (jumped after esp idtLimit idtBase)).mem
                (loadAddress + index) = sampleDisk (sectorBytes + index) :=
  boot_startsKernInit (unsteadyServices_behaved _) lazyBus_serves rfl
    sampleMachine_holds sampleImage_assembled sampleDisk_onDisk

end Start

end MagicalOs.Boot.KernelHead
