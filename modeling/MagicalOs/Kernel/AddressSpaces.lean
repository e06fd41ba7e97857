import MagicalOs.Kernel.TaskIsolation

/-!
# The address space of a new task

`task_init` is taken here from any state in which four pages are free and the
links of the run queue lead to task structures in use.  The memory it leaves
behind translates the two pages of the task, and no other page can be used
from user mode.
-/

namespace MagicalOs.Kernel.AddressSpaces

open MagicalOs.Library.ByteMemory
open MagicalOs.Library.ByteMemory.Memory
open MagicalOs.Kernel.HeapPages
open MagicalOs.Kernel.MachineState
open MagicalOs.Kernel.PageTables
open MagicalOs.Kernel.PageTables.PageEntry
open MagicalOs.Kernel.TaskStructure
open MagicalOs.Kernel.TaskCreation
open MagicalOs.Kernel.SchedQueues
open MagicalOs.Kernel.HeapRuns
open MagicalOs.Kernel.TaskIsolation

/-- The links of the run queue lead to task structures in use, or nowhere. -/
structure QueueInUse (machine : Machine) (known : List Nat) : Prop where
  leads : Leads machine.mem machine.runQueue known
  inUse : ∀ task ∈ known, task ≠ 0 →
    ∃ index < maxHeapPages, task = heapPage index ∧
      Live machine.heapAllocTable index

/-- The states of a run in which no page of a task has been freed. -/
theorem queueInUse_of_invariant {machine : Machine} {tasks : List TaskRecord}
    (holds : Invariant machine tasks)
    (inUse : ∀ index, Held tasks (heapPage index) →
      Live machine.heapAllocTable index) :
    QueueInUse machine (links tasks) where
  leads := holds.leads
  inUse := by
    intro link member nonNull
    rcases holds.pages.heap_links link member nonNull with
      ⟨index, small, rfl⟩
    refine ⟨index, small, rfl, inUse index ?_⟩
    rcases List.mem_cons.mp member with zero | mapped
    · exact absurd zero nonNull
    · rcases List.mem_map.mp mapped with ⟨task, taskMem, equal⟩
      exact ⟨task, taskMem, equal ▸ task.pages.task_mem⟩

section Creation

variable {machine : Machine} {known : List Nat} {file : File}

/-- A page in use is a page away from the pages of a new task. -/
theorem apart_nextTaskPages {table : HeapTable} (free : FourFree table)
    {index : Nat} (small : index < maxHeapPages) (live : Live table index)
    {page : Nat} (pageMem : page ∈ (nextTaskPages table).all) :
    heapPage index + 4096 ≤ page ∨ page + 4096 ≤ heapPage index := by
  have heap := (nextTaskPages_distinct free).heap page pageMem
  refine IsHeapPage.apart ⟨index, small, rfl⟩ heap ?_
  rintro rfl
  exact not_live_of_mem_nextTaskPages free pageMem live

/-- Of a page in use, a creation clears the first word or leaves it alone. -/
theorem prev_creationMemory (free : FourFree machine.heapAllocTable)
    {index : Nat} (small : index < maxHeapPages)
    (live : Live machine.heapAllocTable index) :
    AgreeOn (creationMemory machine file) machine.mem (heapPage index) 4 ∨
      prev (creationMemory machine file) (heapPage index) = 0 := by
  have pages := newTask_pages free file
  have apart {page : Nat}
      (pageMem : page ∈ (nextTaskPages machine.heapAllocTable).all) :=
    apart_nextTaskPages free small live pageMem
  have distinct := nextTaskPages_distinct free
  have aligned := distinct.heapDirectory.aligned
  have indexAligned : heapPage index % 4096 = 0 :=
    IsHeapPage.aligned ⟨index, small, rfl⟩
  rw [creationMemory, pages]
  generalize nextTaskPages machine.heapAllocTable = new at apart aligned ⊢
  have directory := apart new.directory_mem
  have table := apart new.table_mem
  have task := apart new.task_mem
  by_cases overrun : new.directory + 0x1000 = heapPage index
  · right
    have kept :
        AgreeOn
          (initTaskMemory machine.mem new
            (newTask machine.heapAllocTable file).file machine.taskIdCounter)
          (initPageDirectory machine.mem new.directory new.table)
          (heapPage index) 4 :=
      initTaskMemory_agreeOn_initPageDirectory machine.mem _ _
        (heapPage index) 4 (by omega) (by omega)
    rw [prev, loadPtr, kept.load32, ← overrun, initPageDirectory_overrun]
    rfl
  · left
    exact initTaskMemory_agreeOn machine.mem _ machine.taskIdCounter
      (heapPage index) 4 (by omega) (by omega) (by omega)

/-- The run queue still leads to task structures in use. -/
theorem leads_creationMemory (free : FourFree machine.heapAllocTable)
    (queue : QueueInUse machine known) :
    Leads (creationMemory machine file) machine.runQueue known := by
  apply queue.leads.congr
  intro task member nonNull
  rcases queue.inUse task member nonNull with ⟨index, small, rfl, live⟩
  exact prev_creationMemory free small live

/-- After the tables are built, only links of tasks are written. -/
theorem taskInit_linksOnly (free : FourFree machine.heapAllocTable)
    (queue : QueueInUse machine known) :
    LinksOnly (creationMemory machine file) (taskInit machine file).mem
      ((nextTaskPages machine.heapAllocTable).task :: known) := by
  have distinct := nextTaskPages_distinct free
  rw [(taskInit_queueEnq machine file).1, newTask_pages free]
  refine queueEnq_linksOnly_of_leads (leads_creationMemory free queue)
    (fun _ => distinct.heapTask) ?_
  intro nonNull member
  rcases queue.inUse _ member nonNull with ⟨index, _, equal, live⟩
  have fresh :
      heapPage index ∈ (nextTaskPages machine.heapAllocTable).all := by
    rw [← equal]
    exact TaskPages.task_mem _
  exact not_live_of_mem_nextTaskPages free fresh live

/-- The links are no part of the page directory and the page table. -/
theorem taskInit_agreeOn_table (free : FourFree machine.heapAllocTable)
    (queue : QueueInUse machine known) {page : Nat}
    (pageMem : page ∈ [(nextTaskPages machine.heapAllocTable).directory,
      (nextTaskPages machine.heapAllocTable).table]) :
    AgreeOn (taskInit machine file).mem (creationMemory machine file)
      page 0x1000 := by
  have distinct := nextTaskPages_distinct free
  have inAll : page ∈ (nextTaskPages machine.heapAllocTable).all := by
    simp only [List.mem_cons, List.not_mem_nil, or_false] at pageMem
    rcases pageMem with rfl | rfl
    · exact TaskPages.directory_mem _
    · exact TaskPages.table_mem _
  have heap := distinct.heap page inAll
  have lower := heap.lower
  apply (taskInit_linksOnly free queue).agreeOn
  intro link member
  rcases List.mem_cons.mp member with rfl | old
  · have different : page ≠ (nextTaskPages machine.heapAllocTable).task := by
      rcases distinct.ne_of with ⟨_, directory, table, _⟩
      simp only [List.mem_cons, List.not_mem_nil, or_false] at pageMem
      rcases pageMem with rfl | rfl
      · exact directory
      · exact table
    have apart := heap.apart distinct.heapTask different
    omega
  · by_cases null : link = 0
    · omega
    · rcases queue.inUse link old null with ⟨index, small, rfl, live⟩
      have apart := apart_nextTaskPages free small live inAll
      omega

/-- The tables of the new task, and their first words. -/
structure NewTables (mem : Memory) (pages : TaskPages) (file : File) :
    Prop where
  tables : TaskTables mem pages
  kernel : mem.load32 pages.directory = kernelDirectoryEntry
  data : mem.load32 pages.table = userEntry (pageNumber file.dataBaseAddr)

theorem taskInit_newTables (free : FourFree machine.heapAllocTable)
    (queue : QueueInUse machine known) :
    NewTables (taskInit machine file).mem
      (nextTaskPages machine.heapAllocTable) file := by
  have distinct := nextTaskPages_distinct free
  have directory :
      AgreeOn (taskInit machine file).mem (creationMemory machine file)
        (nextTaskPages machine.heapAllocTable).directory 0x1000 :=
    taskInit_agreeOn_table free queue (by simp)
  have table :
      AgreeOn (taskInit machine file).mem (creationMemory machine file)
        (nextTaskPages machine.heapAllocTable).table 0x1000 :=
    taskInit_agreeOn_table free queue (by simp)
  have memory : creationMemory machine file =
      initTaskMemory machine.mem (nextTaskPages machine.heapAllocTable) file
        machine.taskIdCounter := by
    rw [creationMemory, newTask_pages free]
    rfl
  rw [memory] at directory table
  constructor
  · refine (initTaskMemory_tables machine.mem file machine.taskIdCounter
      distinct).congr ?_ ?_
    · exact directory.sub _ _ (by omega) (by omega)
    · exact table.sub _ _ (by omega) (by omega)
  · rw [(directory.sub _ 4 (by omega) (by omega)).load32]
    exact initTaskMemory_kernel machine.mem file machine.taskIdCounter distinct
  · rw [(table.sub _ 4 (by omega) (by omega)).load32]
    exact initTaskMemory_data machine.mem file machine.taskIdCounter distinct

/-- A block outside the heap which no null pointer reaches is kept. -/
theorem taskInit_agreeOn (free : FourFree machine.heapAllocTable)
    (queue : QueueInUse machine known) {base size : Nat} (above : 8 ≤ base)
    (outside : base + size ≤ 0x100000 ∨ 0xf00004 ≤ base) :
    AgreeOn (taskInit machine file).mem machine.mem base size := by
  have distinct := nextTaskPages_distinct free
  have bounds {page : Nat} (heap : IsHeapPage page) :
      0x100000 ≤ page ∧ page + 0x1000 ≤ 0xf00000 :=
    ⟨heap.lower, heap.upper⟩
  have directory := bounds distinct.heapDirectory
  have table := bounds distinct.heapTable
  have task := bounds distinct.heapTask
  have links :
      AgreeOn (taskInit machine file).mem (creationMemory machine file)
        base size := by
    apply (taskInit_linksOnly free queue).agreeOn
    intro link member
    rcases List.mem_cons.mp member with rfl | old
    · omega
    · by_cases null : link = 0
      · omega
      · have heap := bounds (queue.leads.heap link old null)
        omega
  have built :
      AgreeOn (creationMemory machine file) machine.mem base size := by
    rw [creationMemory, newTask_pages free]
    exact initTaskMemory_agreeOn machine.mem _ machine.taskIdCounter base size
      (by omega) (by omega) (by omega)
  exact links.trans built

end Creation

/-! ## Translation -/

section Translation

variable {mem : Memory} {pages : TaskPages} {file : File} {offset : Nat}

/-- The page `0x20000` is the page of the file. -/
theorem NewTables.walk_data (new : NewTables mem pages file)
    (distinct : pages.Distinct) (inPage : offset < 4096) :
    walk mem pages.directory (0x20000000 + offset) =
      some
        { physical := dataPage file * 4096 + offset
          writable := true
          user := true } := by
  have inUser : (0x20000000 + offset) / 4194304 = 0x080 := by omega
  have found := walk_user new.tables distinct inUser
  have entry : (0x20000000 + offset) / 4096 % 1024 = 0 := by omega
  have rest : (0x20000000 + offset) % 4096 = offset := by omega
  rcases userEntry_fields (pageNumber file.dataBaseAddr) with
    ⟨present, writable, user, number⟩
  rw [found, entry, rest, Nat.mul_zero, Nat.add_zero, new.data]
  simp [present, writable, user, number, frame, dataPage]

/-- The page `0x20001` is the stack. -/
theorem NewTables.walk_stack (new : NewTables mem pages file)
    (distinct : pages.Distinct) (inPage : offset < 4096) :
    walk mem pages.directory (0x20001000 + offset) =
      some
        { physical := pages.stack + offset
          writable := true
          user := true } := by
  have inUser : (0x20001000 + offset) / 4194304 = 0x080 := by omega
  have found := walk_user new.tables distinct inUser
  have entry : (0x20001000 + offset) / 4096 % 1024 = 1 := by omega
  have rest : (0x20001000 + offset) % 4096 = offset := by omega
  rcases userEntry_fields (pageNumber pages.stack) with
    ⟨present, writable, user, number⟩
  rw [found, entry, rest, Nat.mul_one, new.tables.stack]
  simp [present, writable, user, number,
    frame_pageNumber distinct.heapStack]

/-- No other page can be used from user mode. -/
theorem NewTables.walk_other (new : NewTables mem pages file)
    (distinct : pages.Distinct) {address : Nat} (small : address < 2 ^ 32)
    (notData : address / 4096 ≠ 0x20000) (notStack : address / 4096 ≠ 0x20001)
    {mapping : Mapping}
    (found : walk mem pages.directory address = some mapping) :
    mapping.user = false := by
  by_cases inUser : address / 4194304 = 0x080
  · have absent : p 0#32 = 0#1 := by decide
    have unused := new.tables.unusedTable (address / 4096 % 1024)
      (by omega) (by omega)
    rw [walk_user new.tables distinct inUser, unused, if_pos absent] at found
    cases found
  · exact not_user_of_walk new.tables (.inr new.kernel) small inUser found

end Translation

end MagicalOs.Kernel.AddressSpaces
