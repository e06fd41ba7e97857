import MagicalOs.Kernel.HeapRuns
import Mathlib.Data.Set.BooleanAlgebra
import Mathlib.Order.CompletePartialOrder

/-!
# What a task can write

A task reaches two pages from user mode: the page of its file and its stack.
The stack is taken from the heap, but the page of the file belongs to the image
loaded at boot, and every task which executes the file is given the same page.
-/

namespace MagicalOs.Kernel.TaskIsolation

open MagicalOs.Library.ByteMemory
open MagicalOs.Library.ByteMemory.Memory
open MagicalOs.Kernel.HeapPages
open MagicalOs.Kernel.MachineState
open MagicalOs.Kernel.PageTables
open MagicalOs.Kernel.PageTables.PageEntry
open MagicalOs.Kernel.TaskStructure
open MagicalOs.Kernel.TaskCreation
open MagicalOs.Kernel.SchedQueues
open MagicalOs.Kernel.KernelRuns
open MagicalOs.Kernel.HeapRuns

/-- The address at which `kern_init` mounts the file system. -/
def fsBaseAddr : Nat := 0x11000

/-- The number of the page which holds the data of a file. -/
def dataPage (file : File) : Nat := (pageNumber file.dataBaseAddr).toNat

/-- A creation finds enough free pages. -/
def FourFree (table : HeapTable) : Prop := 4 ≤ (freePages table).card

/-! ## Walks over the page directory of a task -/

section Walk

variable {mem : Memory} {pages : TaskPages} {address : Nat}

/-- The frame of a heap page is the page. -/
theorem frame_pageNumber {page : Nat} (heap : IsHeapPage page) :
    frame (pageNumber page) = page := by
  have upper := heap.upper
  have aligned := heap.aligned
  have small : page / 4096 < 2 ^ 20 := by omega
  rw [frame, pageNumber, BitVec.toNat_ofNat, Nat.mod_eq_of_lt small]
  omega

/-- Through the user entry, the page table of the task is walked. -/
theorem walk_user (tables : TaskTables mem pages) (distinct : pages.Distinct)
    (user : address / 4194304 = 0x080) :
    walk mem pages.directory address =
      if p (mem.load32 (pages.table + 4 * (address / 4096 % 1024))) = 0#1 then
        none
      else
        some
          { physical :=
              frame (base (mem.load32
                (pages.table + 4 * (address / 4096 % 1024)))) +
                address % 4096
            writable :=
              rW (mem.load32
                (pages.table + 4 * (address / 4096 % 1024))) = 1#1
            user :=
              uS (mem.load32
                (pages.table + 4 * (address / 4096 % 1024))) = 1#1 } := by
  rcases userEntry_fields (pageNumber pages.table) with
    ⟨present, writable, userBit, number⟩
  have entry :
      mem.load32 (pages.directory + 4 * (address / 4194304)) =
        userEntry (pageNumber pages.table) := by
    rw [user]
    exact tables.user
  simp [walk, entry, present, writable, userBit, number,
    frame_pageNumber distinct.heapTable]

/-- Outside the user entry, nothing can be reached from user mode. -/
theorem not_user_of_walk (tables : TaskTables mem pages)
    (first : mem.load32 pages.directory = 0#32 ∨
      mem.load32 pages.directory = kernelDirectoryEntry)
    (small : address < 2 ^ 32) (other : address / 4194304 ≠ 0x080)
    {mapping : Mapping}
    (found : walk mem pages.directory address = some mapping) :
    mapping.user = false := by
  have absent : p 0#32 = 0#1 := by decide
  rcases kernelDirectoryEntry_fields with ⟨_, _, supervisor, _⟩
  by_cases low : address / 4194304 = 0
  · rcases first with cleared | kernel
    · simp [walk, low, cleared, absent] at found
    · simp only [walk, low, Nat.mul_zero, Nat.add_zero, kernel] at found
      split at found
      · cases found
      · split at found
        · cases found
        · cases found
          simp [supervisor]
  · have unused := tables.unusedDirectory (address / 4194304)
      (Nat.pos_of_ne_zero low) other (by omega)
    simp [walk, unused, absent] at found

/-- A task reaches the page of its file and its stack, and no other page. -/
theorem userWritable_subset (tables : TaskTables mem pages)
    (distinct : pages.Distinct)
    (first : mem.load32 pages.directory = 0#32 ∨
      mem.load32 pages.directory = kernelDirectoryEntry)
    {file : File}
    (data : mem.load32 pages.table = 0#32 ∨
      mem.load32 pages.table = userEntry (pageNumber file.dataBaseAddr)) :
    UserWritable mem pages.directory ⊆
      {dataPage file, pages.stack / 4096} := by
  rintro page ⟨address, small, mapping, found, _, user, physical⟩
  have absent : p 0#32 = 0#1 := by decide
  by_cases inUser : address / 4194304 = 0x080
  · rw [walk_user tables distinct inUser] at found
    split at found
    · cases found
    next present =>
      cases found
      change (_ + address % 4096) / 4096 = page at physical
      have offset : address / 4096 % 1024 = 0 ∨
          address / 4096 % 1024 = 1 ∨ 2 ≤ address / 4096 % 1024 := by
        omega
      rcases offset with zero | one | unused
      · left
        rw [zero, Nat.mul_zero, Nat.add_zero] at physical present
        rcases data with cleared | entry
        · exact absurd (by rw [cleared, absent]) present
        · rw [entry, (userEntry_fields _).2.2.2, frame] at physical
          rw [dataPage]
          omega
      · right
        rw [one, Nat.mul_one, tables.stack, (userEntry_fields _).2.2.2,
          frame_pageNumber distinct.heapStack] at physical
        have aligned := distinct.heapStack.aligned
        rw [Set.mem_singleton_iff]
        omega
      · rw [tables.unusedTable _ unused (by omega)] at present
        exact absurd absent present
  · have hidden := not_user_of_walk tables first small inUser found
    rw [hidden] at user
    cases user

/-- The page of the file is reached while its entry is intact. -/
theorem dataPage_mem_userWritable (tables : TaskTables mem pages)
    (distinct : pages.Distinct) {file : File}
    (data : mem.load32 pages.table =
      userEntry (pageNumber file.dataBaseAddr)) :
    dataPage file ∈ UserWritable mem pages.directory := by
  rcases userEntry_fields (pageNumber file.dataBaseAddr) with
    ⟨present, writable, user, number⟩
  have found := walk_user tables distinct
    (show 0x20000000 / 4194304 = 0x080 by decide)
  simp [data, present, writable, user, number] at found
  refine ⟨0x20000000, by decide, _, found, rfl, rfl, ?_⟩
  exact Nat.mul_div_cancel _ (by decide)

end Walk

/-! ## Isolation -/

/--
What tasks which execute files of the file system can write: their stacks, and
the pages of their files, which they share with tasks executing the same file.
-/
structure Isolated (mem : Memory) (tasks : List TaskRecord) : Prop where
  own : ∀ task ∈ tasks, UserWritable mem task.pages.directory ⊆
    {dataPage task.file, task.pages.stack / 4096}
  shared : tasks.Pairwise fun first second =>
    UserWritable mem first.pages.directory ∩
        UserWritable mem second.pages.directory ⊆
      {page | first.file = second.file ∧ page = dataPage first.file}
  resources : ∀ task ∈ tasks,
    ∀ page ∈ UserWritable mem task.pages.directory, ∀ other ∈ tasks,
      4096 * page ≠ other.pages.directory ∧
        4096 * page ≠ other.pages.table ∧ 4096 * page ≠ other.pages.task
  kernel : ∀ task ∈ tasks,
    ∀ page ∈ UserWritable mem task.pages.directory,
      4096 * page < heapStartAddr →
        ∃ file ∈ fsInit fsBaseAddr, page = dataPage file

/-- The two files of the image have a page of their own below the heap. -/
theorem dataPage_fsInit :
    (∀ file ∈ fsInit fsBaseAddr, 4096 * dataPage file < heapStartAddr) ∧
      ∀ file ∈ fsInit fsBaseAddr, ∀ other ∈ fsInit fsBaseAddr,
        dataPage file = dataPage other → file = other := by
  decide

section Isolation

variable {mem : Memory} {tasks : List TaskRecord}
  {task other : TaskRecord} {page : Nat}

/-- Page directories, page tables and task structures are no stacks. -/
private theorem separate_stack (pages : Pages tasks)
    (taskMem : task ∈ tasks) (otherMem : other ∈ tasks)
    (pageMem : page ∈ [other.pages.directory, other.pages.table,
      other.pages.task]) : Separate page task.pages.stack := by
  by_cases same : other = task
  · have own := pages.own other otherMem
    simp only [TaskPages.all, List.pairwise_cons, List.mem_cons,
      List.not_mem_nil, or_false, forall_eq_or_imp, forall_eq] at own
    rcases own with ⟨⟨_, _, directory⟩, ⟨_, table⟩, structPage, _⟩
    rw [← same]
    simp only [List.mem_cons, List.not_mem_nil, or_false] at pageMem
    rcases pageMem with rfl | rfl | rfl
    · exact directory
    · exact table
    · exact structPage
  · refine pages.separate_of_ne otherMem taskMem same page ?_
      task.pages.stack task.pages.stack_mem
    simp only [List.mem_cons, List.not_mem_nil, or_false] at pageMem
    rcases pageMem with rfl | rfl | rfl
    · exact other.pages.directory_mem
    · exact other.pages.table_mem
    · exact other.pages.task_mem

theorem isolated_of_invariant {machine : Machine}
    (holds : Invariant machine tasks)
    (distinct : ∀ task ∈ tasks, task.pages.Distinct)
    (files : ∀ task ∈ tasks, task.file ∈ fsInit fsBaseAddr) :
    Isolated machine.mem tasks := by
  rcases dataPage_fsInit with ⟨low, injective⟩
  have own : ∀ task ∈ tasks,
      UserWritable machine.mem task.pages.directory ⊆
        {dataPage task.file, task.pages.stack / 4096} := by
    intro task taskMem
    have pages := distinct task taskMem
    exact userWritable_subset (holds.tables.tables task taskMem pages) pages
      (holds.tables.directory task taskMem pages.heapDirectory.ne_null)
      (holds.tables.data task taskMem pages)
  have stack {task : TaskRecord} (taskMem : task ∈ tasks) :
      4096 * (task.pages.stack / 4096) = task.pages.stack ∧
        heapStartAddr ≤ task.pages.stack := by
    have heap := (distinct task taskMem).heapStack
    have aligned := heap.aligned
    exact ⟨by omega, heap.lower⟩
  refine ⟨own, ?_, ?_, ?_⟩
  · apply holds.pages.apart.imp_of_mem
    rintro first second firstMem secondMem apart page
      ⟨reachedFirst, reachedSecond⟩
    have firstStack := stack firstMem
    have secondStack := stack secondMem
    have firstLow := low first.file (files first firstMem)
    have secondLow := low second.file (files second secondMem)
    rcases own first firstMem reachedFirst with data | onStack
    · rcases own second secondMem reachedSecond with otherData | otherStack
      · exact ⟨injective first.file (files first firstMem) second.file
          (files second secondMem) (data.symm.trans otherData), data⟩
      · rw [Set.mem_singleton_iff] at otherStack
        omega
    · rw [Set.mem_singleton_iff] at onStack
      rcases own second secondMem reachedSecond with otherData | otherStack
      · omega
      · rw [Set.mem_singleton_iff] at otherStack
        have separate := apart first.pages.stack first.pages.stack_mem
          second.pages.stack second.pages.stack_mem
        have null := separate (by omega)
        exact absurd null
          (distinct first firstMem).heapStack.ne_null
  · intro task taskMem page reached other otherMem
    have pages := distinct other otherMem
    have whole := stack taskMem
    have taskLow := low task.file (files task taskMem)
    have clear {resource : Nat} (heap : IsHeapPage resource)
        (separate : Separate resource task.pages.stack) :
        4096 * page ≠ resource := by
      intro equal
      have lower : heapStartAddr ≤ resource := heap.lower
      rcases own task taskMem reached with data | onStack
      · omega
      · rw [Set.mem_singleton_iff] at onStack
        exact heap.ne_null (separate (by omega))
    have separate {resource : Nat}
        (resourceMem : resource ∈ [other.pages.directory,
          other.pages.table, other.pages.task]) :
        Separate resource task.pages.stack :=
      separate_stack holds.pages taskMem otherMem resourceMem
    exact ⟨clear pages.heapDirectory (separate (by simp)),
      clear pages.heapTable (separate (by simp)),
      clear pages.heapTask (separate (by simp))⟩
  · intro task taskMem page reached below
    rcases own task taskMem reached with data | onStack
    · exact ⟨task.file, files task taskMem, data⟩
    · have whole := stack taskMem
      rw [Set.mem_singleton_iff] at onStack
      omega

end Isolation

/-! ## Sequences of creations -/

/-- The states which creations lead to, each finding four free pages. -/
inductive Creations (layout : Layout) (mem : Memory) :
    Machine → List TaskRecord → Prop where
  | boot : Creations layout mem (boot layout mem) []
  | taskInit {machine : Machine} {tasks : List TaskRecord} (file : File)
      (before : Creations layout mem machine tasks)
      (free : FourFree machine.heapAllocTable) :
      Creations layout mem (taskInit machine file)
        (tasks ++ [newTask machine.heapAllocTable file])

section Runs

variable {layout : Layout} {mem : Memory} {machine : Machine}
  {tasks : List TaskRecord} {file : File}

theorem newTask_pages {table : HeapTable} (free : FourFree table)
    (file : File) : (newTask table file).pages = nextTaskPages table := by
  rw [newTask, allocatePages_of_free free]

/-- Every creation which finds four free pages is given four pages. -/
theorem newTask_distinct {table : HeapTable} (free : FourFree table)
    (file : File) : (newTask table file).pages.Distinct := by
  rw [newTask_pages free]
  exact nextTaskPages_distinct free

theorem distinct_of_fourFree
    (run : HeapRun layout mem FourFree machine tasks) :
    ∀ task ∈ tasks, task.pages.Distinct := by
  induction run with
  | boot => simp
  | memAlloc before induction => exact induction
  | memFree page before inHeap induction => exact induction
  | taskInit file before free inUse induction =>
      intro task member
      rcases List.mem_append.mp member with old | last
      · exact induction task old
      · rw [List.mem_singleton.mp last]
        exact newTask_distinct free _

/-- Tasks which execute different files share no page they can write. -/
theorem heapRun_isolated
    (run : HeapRun layout mem FourFree machine tasks)
    (files : ∀ task ∈ tasks, task.file ∈ fsInit fsBaseAddr) :
    Isolated machine.mem tasks :=
  isolated_of_invariant run.invariant (distinct_of_fourFree run) files

theorem heapAllocTable_taskInit (free : FourFree machine.heapAllocTable)
    (file : File) :
    (taskInit machine file).heapAllocTable =
      takeTaskPages machine.heapAllocTable := by
  simp only [taskInit, allocatePages_of_free free, schedRunqEnq]

/-- Creations alone never free a page of a task. -/
theorem Creations.heapRun (run : Creations layout mem machine tasks) :
    HeapRun layout mem FourFree machine tasks ∧
      ∀ index, Held tasks (heapPage index) →
        Live machine.heapAllocTable index := by
  induction run with
  | boot =>
      constructor
      · exact .boot
      · rintro index ⟨task, member, _⟩
        cases member
  | taskInit file before free induction =>
      rcases induction with ⟨run, inUse⟩
      constructor
      · exact .taskInit file run free inUse
      · rintro index ⟨task, member, page⟩
        rw [heapAllocTable_taskInit free, live_takeTaskPages_iff]
        rcases List.mem_append.mp member with old | last
        · exact .inl (inUse index ⟨task, old, page⟩)
        · rw [List.mem_singleton.mp last, newTask_pages free] at page
          exact .inr page

/--
Whatever files of the file system are executed, the tasks share at most the
page of a file which they both execute, and reach no page the kernel uses.
-/
theorem creations_isolated (run : Creations layout mem machine tasks)
    (files : ∀ task ∈ tasks, task.file ∈ fsInit fsBaseAddr) :
    Isolated machine.mem tasks :=
  heapRun_isolated run.heapRun.1 files

/-- Executing a file twice in a row shares the page of the file. -/
theorem dataPage_shared (run : Creations layout mem machine [])
    (free : FourFree machine.heapAllocTable)
    (freeAgain : FourFree (taskInit machine file).heapAllocTable)
    (clear :
      (newTask (taskInit machine file).heapAllocTable file).pages.directory +
          pageSize ≠
        (newTask machine.heapAllocTable file).pages.table) :
    dataPage file ∈
      UserWritable (taskInit (taskInit machine file) file).mem
          (newTask machine.heapAllocTable file).pages.directory ∩
        UserWritable (taskInit (taskInit machine file) file).mem
          (newTask (taskInit machine file).heapAllocTable
            file).pages.directory := by
  have once := Creations.taskInit file run free
  have twice := Creations.taskInit file once freeAgain
  rcases run.heapRun with ⟨_, inUse⟩
  rcases once.heapRun with ⟨runOnce, inUseOnce⟩
  have before := run.heapRun.1.invariant
  have middle := runOnce.invariant
  have after := twice.heapRun.1.invariant
  have first := newTask_distinct free file
  have second := newTask_distinct freeAgain file
  have firstData := before.taskInit_newData file inUse first
  have secondData := middle.taskInit_newData file inUseOnce second
  have kept := middle.taskInit_data file inUseOnce
    (List.mem_append_right _ (List.mem_singleton_self _))
    first.heapTable.ne_null clear
  constructor
  · refine dataPage_mem_userWritable (after.tables.tables _ ?_ first) first
      (kept.trans firstData)
    simp
  · refine dataPage_mem_userWritable (after.tables.tables _ ?_ second) second
      secondData
    simp

end Runs

/-! ## Two tasks which execute the shell -/

/-- The first file of the image. -/
def fshell : File :=
  { name := fsBaseAddr + pageSize
    dataBaseAddr := fsBaseAddr + pageSize + 32 }

/-- The machine before the first task is created. -/
def booted : Machine := boot Layout.sample fun _ => 0#8

theorem booted_heapPrefix : Prefix booted.heapAllocTable 0 := by
  intro page _
  simp [Live, booted, boot, kernTaskInit, staticMachine]

theorem booted_fourFree : FourFree booted.heapAllocTable := by
  rw [FourFree, booted_heapPrefix.card]
  decide

/-- The task created at boot executes the shell. -/
theorem firstShell_isolated :
    Isolated (taskInit booted fshell).mem
      [newTask booted.heapAllocTable fshell] := by
  have run : Creations Layout.sample (fun _ => 0#8) booted [] := .boot
  apply creations_isolated (.taskInit fshell run booted_fourFree)
  intro task member
  rw [List.mem_singleton.mp member, newTask]
  decide

/-- The pages of the first task, and the table it leaves behind. -/
theorem firstTask_heapPrefix :
    (newTask booted.heapAllocTable fshell).pages.table = heapPage 1 ∧
      Prefix (taskInit booted fshell).heapAllocTable 4 := by
  rcases nextTaskPages_of_heapPrefix booted_heapPrefix (by decide) with
    ⟨pages, taken⟩
  rw [heapAllocTable_taskInit booted_fourFree,
    newTask_pages booted_fourFree, pages]
  exact ⟨rfl, taken⟩

theorem firstTask_fourFree :
    FourFree (taskInit booted fshell).heapAllocTable := by
  rw [FourFree, firstTask_heapPrefix.2.card]
  decide

/-- Two tasks which execute the shell can both write its page. -/
theorem twoShells_not_disjoint :
    Creations Layout.sample (fun _ => 0#8)
        (taskInit (taskInit booted fshell) fshell)
        [newTask booted.heapAllocTable fshell,
          newTask (taskInit booted fshell).heapAllocTable fshell] ∧
      fshell ∈ fsInit fsBaseAddr ∧
      ¬Disjoint
        (UserWritable (taskInit (taskInit booted fshell) fshell).mem
          (newTask booted.heapAllocTable fshell).pages.directory)
        (UserWritable (taskInit (taskInit booted fshell) fshell).mem
          (newTask (taskInit booted fshell).heapAllocTable
            fshell).pages.directory) := by
  have run : Creations Layout.sample (fun _ => 0#8) booted [] := .boot
  refine ⟨?_, by decide, ?_⟩
  · exact .taskInit fshell (.taskInit fshell run booted_fourFree)
      firstTask_fourFree
  · have clear :
        (newTask (taskInit booted fshell).heapAllocTable
            fshell).pages.directory + pageSize ≠
          (newTask booted.heapAllocTable fshell).pages.table := by
      rcases nextTaskPages_of_heapPrefix firstTask_heapPrefix.2 (by decide) with
        ⟨pages, _⟩
      rw [firstTask_heapPrefix.1, newTask_pages firstTask_fourFree, pages]
      decide
    have shared := dataPage_shared run booted_fourFree firstTask_fourFree
      clear
    intro disjoint
    exact Set.disjoint_left.mp disjoint shared.1 shared.2

end MagicalOs.Kernel.TaskIsolation
