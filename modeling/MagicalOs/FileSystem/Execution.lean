import MagicalOs.FileSystem.Files
import MagicalOs.FileSystem.Image
import MagicalOs.Kernel.AddressSpaces

/-!
# From the packed files to the tasks which execute them

The layout of the image is known to five places: the script, the addresses of
`fs_init`, the comparison of `fs_open`, the page table of `task_init`, and the
entry point of the tasks.  `Serves` says that they agree: each of two packed
files is found by its name, and its task sees its data behind the header.

They agree when the script writes both names.  A name which `echo` takes for
an option leaves an empty name in the image, and its file is never found.
-/

namespace MagicalOs.FileSystem.Execution

open MagicalOs.Library.ByteMemory
open MagicalOs.Library.HeldBytes
open MagicalOs.Library.SentinelList
open MagicalOs.Kernel.HeapPages
open MagicalOs.Kernel.MachineState
open MagicalOs.Kernel.PageTables
open MagicalOs.Kernel.TaskCreation (File allocatePages taskInit
  allocatePages_of_free nextTaskPages nextTaskPages_distinct pageNumber)
open MagicalOs.Kernel.TaskIsolation
open MagicalOs.Kernel.AddressSpaces
open MagicalOs.Kernel.CommonRoutines
open MagicalOs.FileSystem.Image
open MagicalOs.FileSystem.Files

/-! ## What is expected of the system -/

/-- The files the layout has room for. -/
structure Fitting (source : SourceFile) : Prop where
  nonzero : ∀ byte ∈ source.name, byte ≠ 0#8
  short : source.name.length < 32
  fits : source.data.length ≤ 4064

/-- The file a query asks for. -/
def wanted (first second : SourceFile) (query : List Byte) : Option Entry :=
  if query = first.name then
    some .fshell
  else if query = second.name then
    some .fuptime
  else
    none

/-- `fs_open` returns what is asked for. -/
def Opens (fsBaseAddr : Nat) (image : List Byte) (first second : SourceFile) :
    Prop :=
  ∀ (mem : Memory) (before : FileTable) (address : Nat) (query : List Byte),
    Holds mem fsBaseAddr image → HoldsString mem address query →
      ∃ bound, ∀ iterations, bound ≤ iterations →
        fsOpen mem (fsInit mem fsBaseAddr before) address iterations =
          some (wanted first second query)

/-- The page directory which `task_init` builds. -/
def directory (machine : Machine) : Nat :=
  (allocatePages machine.heapAllocTable).1.directory

/-- The stack page which `task_init` allocates. -/
def stack (machine : Machine) : Nat :=
  (allocatePages machine.heapAllocTable).1.stack

/-- A task created for the file sees its data, its stack, and nothing else. -/
structure Executes (machine : Machine) (file : File) (data : List Byte) :
    Prop where
  data : ∀ (k : Nat) (inData : k < data.length), ∃ mapping,
    walk (taskInit machine file).mem (directory machine) (0x20000020 + k) =
        some mapping ∧
      mapping.user = true ∧
      mapping.physical = file.dataBaseAddr + k ∧
      machine.mem mapping.physical = data[k] ∧
      (mapping.physical < heapStartAddr ∨
          heapPage maxHeapPages + 4 ≤ mapping.physical →
        (taskInit machine file).mem mapping.physical = data[k])
  stack : ∀ offset < 4096,
    walk (taskInit machine file).mem (directory machine)
        (0x20001000 + offset) =
      some
        { physical := stack machine + offset
          writable := true
          user := true }
  others : ∀ address < 2 ^ 32,
    address / 4096 ≠ 0x20000 → address / 4096 ≠ 0x20001 →
      ∀ mapping,
        walk (taskInit machine file).mem (directory machine) address =
            some mapping →
          mapping.user = false

/-- The image serves both files. -/
structure Serves (fsBaseAddr : Nat) (image : List Byte)
    (first second : SourceFile) : Prop where
  opens : Opens fsBaseAddr image first second
  executes : ∀ (machine : Machine) (before : FileTable) (known : List Nat)
    (entry : Entry) (source : SourceFile),
    (entry, source) ∈ [(Entry.fshell, first), (Entry.fuptime, second)] →
    Holds machine.mem fsBaseAddr image →
    FourFree machine.heapAllocTable → QueueInUse machine known →
      Executes machine
        ((fsInit machine.mem fsBaseAddr before).file entry) source.data

/-! ## Execution -/

section Executes

variable {machine : Machine} {known : List Nat} {file : File}
  {data : List Byte} {page : Nat}

/-- The page frame drops the offset of the data behind the header. -/
theorem dataPage_of_page (position : file.dataBaseAddr = page + 32)
    (aligned : page % 4096 = 0) (inMemory : page + 4096 ≤ 2 ^ 32) :
    dataPage file * 4096 = page := by
  have number : file.dataBaseAddr / 4096 < 2 ^ 20 := by omega
  rw [dataPage, pageNumber, BitVec.toNat_ofNat, Nat.mod_eq_of_lt number]
  omega

/-- A file whose data lies 32 bytes into a page is executed. -/
theorem executes_of_page (position : file.dataBaseAddr = page + 32)
    (aligned : page % 4096 = 0) (inMemory : page + 4096 ≤ 2 ^ 32)
    (held : Holds machine.mem (page + 32) (contents data))
    (fits : data.length ≤ 4064) (free : FourFree machine.heapAllocTable)
    (queue : QueueInUse machine known) : Executes machine file data := by
  have distinct := nextTaskPages_distinct free
  have new :
      NewTables (taskInit machine file).mem
        (nextTaskPages machine.heapAllocTable) file :=
    taskInit_newTables free queue
  have frame := dataPage_of_page position aligned inMemory
  have pages := allocatePages_of_free free
  rw [contents, holds_append] at held
  constructor
  · intro k inData
    have inPage : 32 + k < 4096 := by omega
    have address : 0x20000000 + (32 + k) = 0x20000020 + k := by omega
    have physical :
        dataPage file * 4096 + (32 + k) = file.dataBaseAddr + k := by
      rw [frame, position, Nat.add_assoc]
    have value : machine.mem (file.dataBaseAddr + k) = data[k] := by
      rw [position]
      exact held.1.getElem inData
    have found := new.walk_data distinct inPage
    rw [address, physical] at found
    have walked :
        walk (taskInit machine file).mem (directory machine) (0x20000020 + k) =
          some
            { physical := file.dataBaseAddr + k
              writable := true
              user := true } := by
      rw [directory, pages]
      exact found
    refine ⟨_, walked, rfl, rfl, value, ?_⟩
    intro outside
    have bounds : file.dataBaseAddr + k + 1 ≤ 0x100000 ∨
        0xf00004 ≤ file.dataBaseAddr + k := outside
    have kept :
        Memory.AgreeOn (taskInit machine file).mem machine.mem
          (file.dataBaseAddr + k) 1 :=
      taskInit_agreeOn free queue (by omega) bounds
    dsimp only
    rw [kept.load8, value]
  · intro offset inPage
    rw [directory, stack, pages]
    exact new.walk_stack distinct inPage
  · intro address small notData notStack mapping found
    rw [directory, pages] at found
    exact new.walk_other distinct small notData notStack found

end Executes

/-! ## Images whose names are all written -/

section Written

variable {memory : Memory} {fsBaseAddr : Nat} {first second : SourceFile}

/-- The two files lie behind the control block, one in each page. -/
theorem parts_of_written (parts : Parts memory fsBaseAddr first second)
    (firstWord : ¬EchoOption first.name) (firstFitting : Fitting first)
    (secondWord : ¬EchoOption second.name)
    (secondFitting : Fitting second) :
    (HoldsString memory (fsBaseAddr + 0x1000) first.name ∧
        Holds memory (fsBaseAddr + 0x1000 + 32) (contents first.data)) ∧
      HoldsString memory (fsBaseAddr + 0x2000) second.name ∧
        Holds memory (fsBaseAddr + 0x2000 + 32) (contents second.data) := by
  have firstLength := length_header firstWord firstFitting.short
  have secondLength := length_header secondWord secondFitting.short
  have secondPage :
      fsBaseAddr + 0x1000 + (header first.name ++ contents first.data).length =
        fsBaseAddr + 0x2000 := by
    rw [List.length_append, firstLength, length_contents firstFitting.fits]
  have firstContents := parts.firstContents
  have secondHeader := parts.secondHeader
  have secondContents := parts.secondContents
  rw [firstLength] at firstContents
  rw [secondPage] at secondHeader
  rw [secondPage, secondLength] at secondContents
  refine ⟨⟨?_, firstContents⟩, ?_, secondContents⟩
  · exact holdsString_header firstWord firstFitting.nonzero
      firstFitting.short parts.firstHeader
  · exact holdsString_header secondWord secondFitting.nonzero
      secondFitting.short secondHeader

end Written

section Serves

variable {fsBaseAddr : Nat} {image : List Byte} {first second : SourceFile}
  (packed : makeOs5Fs [first, second] = some image)
include packed

theorem opens_of_written (firstWord : ¬EchoOption first.name)
    (firstFitting : Fitting first) (secondWord : ¬EchoOption second.name)
    (secondFitting : Fitting second) :
    Opens fsBaseAddr image first second := by
  intro mem before address query loaded held
  have parts := parts_of_holds packed loaded
  rcases parts_of_written parts firstWord firstFitting secondWord
    secondFitting with ⟨⟨firstName, _⟩, secondName, _⟩
  let text : Entry → List Byte
    | .fhead => []
    | .fshell => first.name
    | .fuptime => second.name
  have names : ∀ f, f ∈ [Entry.fshell, Entry.fuptime] →
      HoldsString mem ((fsInit mem fsBaseAddr before).file f).name
        (text f) := by
    intro f member
    cases f with
    | fhead => exact absurd member (by decide)
    | fshell => exact firstName
    | fuptime => exact secondName
  refine ⟨query.length + 3, fun iterations enough => ?_⟩
  have length : [Entry.fshell, Entry.fuptime].length = 2 := rfl
  rw [fsOpen_eq_find (fsInit_queued mem fsBaseAddr before) held names
    (by omega)]
  simp only [List.find?_cons, List.find?_nil, text, wanted]
  by_cases isFirst : query = first.name
  · simp [isFirst]
  · by_cases isSecond : query = second.name
    · have different : second.name ≠ first.name :=
        fun equal => isFirst (isSecond.trans equal)
      simp [isSecond, different]
    · simp [isFirst, isSecond]

theorem serves_of_written (aligned : fsBaseAddr % 4096 = 0)
    (inMemory : fsBaseAddr + 0x3000 ≤ 2 ^ 32)
    (firstWord : ¬EchoOption first.name) (firstFitting : Fitting first)
    (secondWord : ¬EchoOption second.name)
    (secondFitting : Fitting second) :
    Serves fsBaseAddr image first second := by
  constructor
  · exact opens_of_written packed firstWord firstFitting secondWord
      secondFitting
  · intro machine before known entry source member loaded free queue
    have parts := parts_of_holds packed loaded
    rcases parts_of_written parts firstWord firstFitting secondWord
      secondFitting with ⟨⟨_, firstData⟩, _, secondData⟩
    simp only [List.mem_cons, Prod.mk.injEq, List.not_mem_nil, or_false]
      at member
    rcases member with ⟨rfl, rfl⟩ | ⟨rfl, rfl⟩
    · have position :
          ((fsInit machine.mem fsBaseAddr before).file .fshell).dataBaseAddr =
            fsBaseAddr + 0x1000 + 32 :=
        rfl
      exact executes_of_page position (by omega) (by omega) firstData
        firstFitting.fits free queue
    · have position :
          ((fsInit machine.mem fsBaseAddr before).file
              .fuptime).dataBaseAddr =
            fsBaseAddr + 0x2000 + 32 :=
        rfl
      exact executes_of_page position (by omega) (by omega) secondData
        secondFitting.fits free queue

end Serves

/-! ## Names which are options of `echo` -/

section Options

variable {fsBaseAddr : Nat} {image query : List Byte}
  {first second : SourceFile}

end Options

/-! ## Every image of two files -/

/-- `bin/shell`, with two bytes of data. -/
def shellSource : SourceFile where
  path :=
    [0x62#8, 0x69#8, 0x6e#8, 0x2f#8, 0x73#8, 0x68#8, 0x65#8, 0x6c#8, 0x6c#8]
  data := [0x90#8, 0xc3#8]

/-- `bin/uptime`, with one byte of data. -/
def uptimeSource : SourceFile where
  path :=
    [0x62#8, 0x69#8, 0x6e#8, 0x2f#8, 0x75#8, 0x70#8, 0x74#8, 0x69#8, 0x6d#8,
      0x65#8]
  data := [0xc3#8]

end MagicalOs.FileSystem.Execution
