import MagicalOs.Boot.Loader
import MagicalOs.FileSystem.Execution
import MagicalOs.Kernel.UserPrograms

/-!
# From the floppy disk to the running tasks

The image of the floppy disk is the boot sector, the kernel and the packed
applications, one behind the other; the linker gives the first two their sizes.
The loader, `mem_init`, `kern_task_init` and the steps of the kernel keep the
applications at the address where `fs_init` expects them, and programs reach
them only through the page of the file they execute.

So the files are found by name in every state, if no program overwrites the
name in front of its entry point; and they are executed as they were packed, if
no program overwrites its file.
-/

namespace MagicalOs.Boot.FloppyImage

open MagicalOs.Library.ByteMemory
open MagicalOs.Library.ByteMemory.Memory
open MagicalOs.Library.FloppyDisk
open MagicalOs.Library.HeldBytes
open MagicalOs.Kernel.HeapPages
open MagicalOs.Kernel.MachineState
open MagicalOs.Kernel.PageTables
open MagicalOs.Kernel.KernelRuns
open MagicalOs.Kernel.HeapRuns (TaskRecord)
open MagicalOs.Kernel.TaskIsolation (fsBaseAddr dataPage FourFree
  dataPage_fsInit)
open MagicalOs.Kernel.StableMemory
open MagicalOs.Kernel.UserPrograms
open MagicalOs.FileSystem.Image
open MagicalOs.FileSystem.Files
open MagicalOs.FileSystem.Execution
open MagicalOs.Boot.Loader

/-! ## The image -/

/-- `cat boot.bin kernel.bin apps.img`. -/
def fdImg (bootBin kernelBin appsImg : List Byte) : List Byte :=
  bootBin ++ kernelBin ++ appsImg

/-- The disk begins with the image. -/
def Begins (disk : Nat → Byte) (image : List Byte) : Prop :=
  ∀ (offset : Nat) (inside : offset < image.length),
    disk offset = image[offset]

/-- The floppy disk which is built from two applications. -/
structure Built (disk : Nat → Byte) (kernelBin appsImg : List Byte)
    (first second : SourceFile) : Prop where
  packed : makeOs5Fs [first, second] = some appsImg
  firstWord : ¬EchoOption first.name
  secondWord : ¬EchoOption second.name
  firstFitting : Fitting first
  secondFitting : Fitting second
  kernelLength : kernelBin.length = 0x9200
  begins : ∃ bootBin, bootBin.length = sectorBytes ∧
    Begins disk (fdImg bootBin kernelBin appsImg)

section Loading

variable {State : Type} {bios : Firmware State} {disk : Nat → Byte}
  {kernelBin appsImg : List Byte} {first second : SourceFile}
  {state last : State} {memory loaded : Memory} {attempts : Nat}

theorem Built.appsLength (built : Built disk kernelBin appsImg first second) :
    appsImg.length = 0x3000 :=
  length_image built.packed built.firstWord built.firstFitting.short
    built.firstFitting.fits built.secondWord built.secondFitting.short
    built.secondFitting.fits

/-- The loader puts the kernel and the applications where they are used. -/
theorem Built.loads (built : Built disk kernelBin appsImg first second)
    (conforming : Conforming floppy disk bootSector bios)
    (ran : load bios attempts state memory = some (last, loaded)) :
    Holds loaded loadAddress kernelBin ∧ Holds loaded fsBaseAddr appsImg := by
  rcases built.begins with ⟨bootBin, bootLength, begins⟩
  have copied := (load_spec conforming ran).1
  have kernelLength := built.kernelLength
  have appsLength := built.appsLength
  have whole : Holds loaded loadAddress (kernelBin ++ appsImg) := by
    apply holds_iff_getElem.mpr
    intro index inside
    have small : index < loadSize := by
      rw [List.length_append, kernelLength, appsLength] at inside
      exact inside
    have position :
        sectorBytes + index < (fdImg bootBin kernelBin appsImg).length := by
      rw [fdImg, List.append_assoc, List.length_append, bootLength]
      exact Nat.add_lt_add_left inside sectorBytes
    rw [copied index small, begins _ position]
    simp only [fdImg, List.append_assoc]
    rw [List.getElem_append_right (by omega)]
    simp only [bootLength, Nat.add_sub_cancel_left]
  have parts := holds_append.mp whole
  have address : loadAddress + kernelBin.length = fsBaseAddr := by
    rw [kernelLength]
    rfl
  rwa [address] at parts

end Loading

/-! ## The applications in memory -/

/-- `mem_init` writes behind the kernel and its stack. -/
theorem memInit_agreeOn_image (mem : Memory) :
    AgreeOn (memInit mem) mem 0x11000 0x3000 := by
  have directory :
      AgreeOn (initKernelDirectory mem).mem mem 0x11000 0x3000 :=
    (initKernelDirectory_agreeOutside mem).agreeOn _ _ (.inl (by omega))
  have frame := (initKernelTable_reached (initKernelDirectory mem).mem).frame
  have startIndex : (tableStart (initKernelDirectory mem).mem).i = 0 := rfl
  have startMem : (tableStart (initKernelDirectory mem).mem).mem =
      (initKernelDirectory mem).mem := rfl
  rw [startIndex, startMem] at frame
  have table :
      AgreeOn (memInit mem) (initKernelDirectory mem).mem 0x11000 0x3000 := by
    rw [memInit, EntryCursor.written]
    exact frame.agreeOn _ _ (.inl (by omega))
  exact table.trans directory

/-- No program stores to this byte of the image. -/
def Spared (Allowed : Word → Prop) (physical : Nat) : Prop :=
  ∀ address, Allowed address → address.toNat / 4096 = 0x20000 →
    ∀ file ∈ Kernel.TaskCreation.fsInit fsBaseAddr,
      physical ≠ dataPage file * 4096 + address.toNat % 4096

section Image

variable {layout : Layout} {loaded : Memory} {Allowed : Word → Prop}
  {machine : Machine} {records : List TaskRecord} {physical : Nat}

theorem boot_image (layout : Layout) (loaded : Memory)
    (lower : 0x11000 ≤ physical) (upper : physical < 0x14000) :
    (boot layout loaded).mem physical = loaded physical := by
  rw [boot, kernTaskInit_frame layout _ lower, staticMachine]
  dsimp only
  exact memInit_agreeOn_image loaded physical lower (by omega)

/-- The bytes of the image which no program stores to stay as loaded. -/
theorem programs_image
    (programs : Programs layout loaded Allowed machine records)
    (lower : 0x11000 ≤ physical) (upper : physical < 0x14000)
    (spared : Spared Allowed physical) :
    machine.mem physical = loaded physical := by
  induction programs with
  | boot => exact boot_image layout loaded lower upper
  | kernel before acts induction =>
      rcases programs_guarded before with ⟨queues, guarded⟩
      have holds := guarded.invariant
      cases acts with
      | kernel executes taken =>
          have below : physical + 1 ≤ heapStartAddr :=
            Nat.le_trans upper (by decide)
          have stable : StableBlock _ physical 1 :=
            stableBlock_below lower below fun task member =>
              holds.represents.pages task (holds.perm.mem_iff.mpr member)
          have unchanged := stable.agreeOn holds taken
          rw [unchanged.load8]
          exact induction
  | store before allowed acts induction =>
      rcases programs_guarded before with ⟨queues, guarded⟩
      cases acts with
      | store stored =>
          rcases guarded.userStore_eq stored with
            ⟨record, member, target, _, reaches, rfl⟩
          have different : physical ≠ target := by
            rcases reaches with ⟨inData, rfl⟩ | ⟨_, rfl⟩
            · exact spared _ allowed inData record.file
                (guarded.files record member)
            · have stack := (guarded.distinct member).heapStack.lower
              omega
          dsimp only
          rw [store8_agreeOutside _ _ _ physical (by omega)]
          exact induction

end Image

/-- The two files of the image lie behind its first page. -/
theorem dataPage_cases {file : Kernel.TaskCreation.File}
    (member : file ∈ Kernel.TaskCreation.fsInit fsBaseAddr) :
    dataPage file = 0x12 ∨ dataPage file = 0x13 := by
  revert file
  decide

/-- The addresses behind the name which is in front of the entry point. -/
def BehindName (address : Word) : Prop := 0x20000020 ≤ address.toNat

/-- The addresses of the stack. -/
def OnStack (address : Word) : Prop := address.toNat / 4096 = 0x20001

/-- A name takes the first bytes of the page of its file. -/
theorem spared_name {physical : Nat}
    (inName : 0x12000 ≤ physical ∧ physical < 0x12020 ∨
      0x13000 ≤ physical ∧ physical < 0x13020) :
    Spared BehindName physical := by
  intro address behind inPage file member
  rw [BehindName] at behind
  rcases dataPage_cases member with first | second
  · rw [first]
    omega
  · rw [second]
    omega

/-- Stores to the stack spare the whole image. -/
theorem spared_onStack (physical : Nat) : Spared OnStack physical := by
  intro address onStack inPage
  rw [OnStack, inPage] at onStack
  cases onStack

/-- The addresses of the files do not depend on the memory. -/
theorem file_fsInit (mem old : Memory) (before : FileTable) (entry : Entry) :
    (fsInit mem fsBaseAddr before).file entry =
      (fsInit old fsBaseAddr before).file entry :=
  rfl

/-- `fs_open` finds the files whose names lie in their pages. -/
theorem fsOpen_of_names {mem : Memory} {first second : SourceFile}
    {query : List Byte} {address iterations : Nat} (old : Memory)
    (before : FileTable)
    (firstName : HoldsString mem (fsBaseAddr + 0x1000) first.name)
    (secondName : HoldsString mem (fsBaseAddr + 0x2000) second.name)
    (held : HoldsString mem address query)
    (enough : query.length + 3 ≤ iterations) :
    fsOpen mem (fsInit old fsBaseAddr before) address iterations =
      some (wanted first second query) := by
  let text : Entry → List Byte
    | .fhead => []
    | .fshell => first.name
    | .fuptime => second.name
  have names : ∀ f, f ∈ [Entry.fshell, Entry.fuptime] →
      HoldsString mem ((fsInit old fsBaseAddr before).file f).name
        (text f) := by
    intro f member
    cases f with
    | fhead => exact absurd member (by decide)
    | fshell => exact firstName
    | fuptime => exact secondName
  have length : [Entry.fshell, Entry.fuptime].length = 2 := rfl
  rw [fsOpen_eq_find (fsInit_queued old fsBaseAddr before) held names
    (by omega)]
  simp only [List.find?_cons, List.find?_nil, text, wanted]
  by_cases isFirst : query = first.name
  · simp [isFirst]
  · by_cases isSecond : query = second.name
    · have different : second.name ≠ first.name :=
        fun equal => isFirst (isSecond.trans equal)
      simp [isSecond, different]
    · simp [isFirst, isSecond]

/-! ## The files in every state -/

section Files

variable {State : Type} {bios : Firmware State} {disk : Nat → Byte}
  {kernelBin appsImg : List Byte} {first second : SourceFile}
  {state last : State} {memory loaded : Memory} {attempts : Nat}
  {layout : Layout} {machine : Machine} {records : List TaskRecord}

/--
The kernel is loaded to where the loader jumps; and from then on `fs_open`
finds the two files by their names, and nothing by another one, in every state
of the kernel and its programs, if no program stores to the name of its file.
-/
theorem floppy_opens (built : Built disk kernelBin appsImg first second)
    (conforming : Conforming floppy disk bootSector bios)
    (ran : load bios attempts state memory = some (last, loaded)) :
    Holds loaded loadAddress kernelBin ∧
    ∀ (layout : Layout) (machine : Machine) (records : List TaskRecord),
      Programs layout loaded BehindName machine records →
      ∀ (before : FileTable) (address : Nat) (query : List Byte),
        HoldsString machine.mem address query →
        ∃ bound, ∀ iterations, bound ≤ iterations →
          fsOpen machine.mem (fsInit (memInit loaded) fsBaseAddr before)
              address iterations =
            some (wanted first second query) := by
  rcases built.loads conforming ran with ⟨kernel, apps⟩
  refine ⟨kernel, fun layout machine records programs before address query
    held => ⟨query.length + 3, fun iterations enough => ?_⟩⟩
  have parts := parts_of_holds built.packed apps
  rcases parts_of_written parts built.firstWord built.firstFitting
    built.secondWord built.secondFitting with
    ⟨⟨firstName, _⟩, secondName, _⟩
  have firstShort := built.firstFitting.short
  have secondShort := built.secondFitting.short
  have start : fsBaseAddr = 0x11000 := rfl
  apply fsOpen_of_names
  · apply firstName.of_agreeOn
    intro physical lower upper
    refine (programs_image programs ?_ ?_ (spared_name ?_)).symm
    · omega
    · omega
    · omega
  · apply secondName.of_agreeOn
    intro physical lower upper
    refine (programs_image programs ?_ ?_ (spared_name ?_)).symm
    · omega
    · omega
    · omega
  · exact held
  · exact enough

/--
In every state of the kernel and of programs which store to their stacks only,
a new task for a file has the packed data from its entry point on.
-/
theorem floppy_executes (built : Built disk kernelBin appsImg first second)
    (conforming : Conforming floppy disk bootSector bios)
    (ran : load bios attempts state memory = some (last, loaded))
    (programs : Programs layout loaded OnStack machine records)
    (free : FourFree machine.heapAllocTable) (before : FileTable)
    (entry : Entry) (source : SourceFile)
    (isFile :
      (entry, source) ∈ [(Entry.fshell, first), (Entry.fuptime, second)]) :
    Executes machine
      ((fsInit (memInit loaded) fsBaseAddr before).file entry)
      source.data := by
  have apps := (built.loads conforming ran).2
  have kept : Holds machine.mem fsBaseAddr appsImg := by
    apply holds_iff_getElem.mpr
    intro index inside
    have value := apps.getElem inside
    have small : index < 0x3000 := by rwa [built.appsLength] at inside
    have start : fsBaseAddr = 0x11000 := rfl
    have unchanged := programs_image programs
      (show 0x11000 ≤ fsBaseAddr + index by omega)
      (show fsBaseAddr + index < 0x14000 by omega) (spared_onStack _)
    rw [unchanged, value]
  rcases programs_guarded programs with ⟨queues, guarded⟩
  have queue := runQueue_inUse guarded.invariant
  have serves : Serves fsBaseAddr appsImg first second :=
    serves_of_written built.packed (by decide) (by decide) built.firstWord
      built.firstFitting built.secondWord built.secondFitting
  rw [file_fsInit (memInit loaded) machine.mem]
  exact serves.executes machine before _ entry source isFile kept free queue

end Files

/-! ## A floppy disk -/

/-- The disk with these applications, an empty boot sector and kernel. -/
def sampleDisk (appsImg : List Byte) (offset : Nat) : Byte :=
  (fdImg (zeros sectorBytes) (zeros 0x9200) appsImg).getD offset 0#8

theorem sampleDisk_built {appsImg : List Byte}
    (packed : makeOs5Fs [shellSource, uptimeSource] = some appsImg) :
    Built (sampleDisk appsImg) (zeros 0x9200) appsImg shellSource
      uptimeSource where
  packed := packed
  firstWord := by decide
  secondWord := by decide
  firstFitting := ⟨by decide, by decide, by decide⟩
  secondFitting := ⟨by decide, by decide, by decide⟩
  kernelLength := length_zeros _
  begins := by
    refine ⟨zeros sectorBytes, length_zeros _, fun offset inside => ?_⟩
    exact (List.getElem_eq_getD 0#8).symm

/-- Two tasks have been created from the disk. -/
theorem sampleFloppy_opens :
    ∃ appsImg loaded machine first second,
      Built (sampleDisk appsImg) (zeros 0x9200) appsImg shellSource
        uptimeSource ∧
      Programs Layout.sample loaded BehindName machine [first, second] ∧
      ∀ (before : FileTable) (address : Nat) (query : List Byte),
        HoldsString machine.mem address query →
        ∃ bound, ∀ iterations, bound ≤ iterations →
          fsOpen machine.mem (fsInit (memInit loaded) fsBaseAddr before)
              address iterations =
            some (wanted shellSource uptimeSource query) := by
  have packed : ∃ appsImg,
      makeOs5Fs [shellSource, uptimeSource] = some appsImg := ⟨_, rfl⟩
  rcases packed with ⟨appsImg, packed⟩
  have built := sampleDisk_built packed
  have conforming := unsteady_conforming (sampleDisk appsImg) bootSector
  rcases load_ends conforming false fun _ => 0#8 with
    ⟨attempts, last, loaded, ran⟩
  rcases Idle.exists_two Layout.sample loaded BehindName with
    ⟨machine, first, second, idle⟩
  exact ⟨appsImg, loaded, machine, first, second, built, idle.programs,
    (floppy_opens built conforming ran).2 _ _ _ idle.programs⟩

/-- A third task would execute the shell. -/
theorem sampleFloppy_executes :
    ∃ appsImg loaded machine first second,
      Built (sampleDisk appsImg) (zeros 0x9200) appsImg shellSource
        uptimeSource ∧
      Programs Layout.sample loaded OnStack machine [first, second] ∧
      ∀ before : FileTable,
        Executes machine
          ((fsInit (memInit loaded) fsBaseAddr before).file .fshell)
          shellSource.data := by
  have packed : ∃ appsImg,
      makeOs5Fs [shellSource, uptimeSource] = some appsImg := ⟨_, rfl⟩
  rcases packed with ⟨appsImg, packed⟩
  have built := sampleDisk_built packed
  have conforming := unsteady_conforming (sampleDisk appsImg) bootSector
  rcases load_ends conforming false fun _ => 0#8 with
    ⟨attempts, last, loaded, ran⟩
  rcases Idle.exists_two Layout.sample loaded OnStack with
    ⟨machine, first, second, idle⟩
  have free : FourFree machine.heapAllocTable :=
    idle.invariant.free (by simp [structs_length])
  exact ⟨appsImg, loaded, machine, first, second, built, idle.programs,
    fun before => floppy_executes built conforming ran idle.programs free
      before .fshell shellSource List.mem_cons_self⟩

end MagicalOs.Boot.FloppyImage
