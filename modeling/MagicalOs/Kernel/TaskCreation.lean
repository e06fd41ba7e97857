import MagicalOs.Kernel.PageTables
import MagicalOs.Kernel.SchedQueues

/-!
# Task creation

`task_init` takes four heap pages, builds the page directory and the page
table of the task in the first two of them, fills in the task structure in the
third one, installs the task state segment and puts the task on the run queue.
It checks none of the addresses `mem_alloc` returns.

The pages are zeroed entry by entry.  The second clearing loop of the page
directory does not count the user entry, so it runs one entry past the end of
the page; `initPageDirectory_frame` states the block which is really written.
-/

namespace MagicalOs.Kernel.TaskCreation

open MagicalOs.Library.BitField
open MagicalOs.Library.ByteMemory
open MagicalOs.Library.ByteMemory.Memory
open MagicalOs.Kernel.Descriptors
open MagicalOs.Kernel.HeapPages
open MagicalOs.Kernel.MachineState
open MagicalOs.Kernel.PageTables
open MagicalOs.Kernel.TaskStructure
open MagicalOs.Kernel.SchedQueues

/-- The part of `struct file` which task creation reads. -/
structure File where
  name : Nat
  dataBaseAddr : Nat
  deriving DecidableEq

/-- `fs_init`: the two files of the image loaded at `fsBaseAddr`. -/
def fsInit (fsBaseAddr : Nat) : List File :=
  [{ name := fsBaseAddr + pageSize
     dataBaseAddr := fsBaseAddr + pageSize + 32 },
    { name := fsBaseAddr + pageSize * 2
      dataBaseAddr := fsBaseAddr + pageSize * 2 + 32 }]

/-- `GDT_IDX_OFS`. -/
def gdtIdxOfs : Nat := 3

/-- `context_switch_template`. -/
def contextSwitchTemplate : List Byte :=
  [0x55#8, 0x89#8, 0xe5#8, 0xea#8, 0x00#8, 0x00#8, 0x00#8, 0x00#8, 0x00#8,
    0x00#8, 0x5d#8, 0xc3#8]

/-- The four pages of a task. -/
structure TaskPages where
  directory : Nat
  table : Nat
  task : Nat
  stack : Nat
  deriving DecidableEq

/-- The calls of `mem_alloc` at the start of `task_init`. -/
def allocatePages (table : HeapTable) : TaskPages × HeapTable :=
  let (directory, table) := memAlloc table
  let (pageTable, table) := memAlloc table
  let (task, table) := memAlloc table
  let (stack, table) := memAlloc table
  ({ directory := directory, table := pageTable, task := task, stack := stack },
    table)

/-- The page number of an address, `address >> 12`. -/
def pageNumber (address : Nat) : BitVec 20 := BitVec.ofNat 20 (address / 4096)

/-- The first loop over the page directory, up to the user entry. -/
def initLowDirectory (mem : Memory) (directory : Nat) : EntryCursor :=
  loopTo 0x080 putZero
    { put kernelDirectoryEntry
        { mem := mem, i := 0, entry := directory, pagingBaseAddr := 0#20 }
      with i := 1 }

def initPageDirectory (mem : Memory) (directory table : Nat) : Memory :=
  (loopTo 0x400 putZero
    (put (userEntry (pageNumber table))
      (initLowDirectory mem directory))).mem

/-- The two pages a task may use, before the loop which clears the rest. -/
def initUserEntries (mem : Memory) (table data stack : Nat) : EntryCursor :=
  { put (userEntry (pageNumber stack))
      (put (userEntry (pageNumber data))
        { mem := mem, i := 0, entry := table, pagingBaseAddr := 0#20 })
    with i := 2 }

def initPageTable (mem : Memory) (table data stack : Nat) : Memory :=
  (loopTo 0x400 putZero (initUserEntries mem table data stack)).mem

/-- The selector byte patched into `context_switch_func`. -/
def selectorByte (taskId : Half) : Byte :=
  BitVec.ofInt 8 (8 * ((taskId.toNat : Int) - 1) + 0x20)

/-- `task_id`, `context_switch_func` and `context_switch`. -/
def initSwitchRoutine (mem : Memory) (task : Nat) (taskId : Half) : Memory :=
  let mem := mem.store16 (task + 8) taskId
  let mem := mem.storeBytes (contextSwitchFunc task) contextSwitchTemplate
  let mem := mem.store8 (contextSwitchFunc task + 8) (selectorByte taskId)
  mem.storePtr (task + 116) (contextSwitchFunc task)

/-- The assignments to `tss`. -/
def initTss (mem : Memory) (task directory : Nat) : Memory :=
  let mem := mem.store32 (tss task + 32) 0x20000020#32
  let mem := mem.store32 (tss task + 56) 0x20001800#32
  let mem := mem.store32 (tss task + 36) 0x00000200#32
  let mem := mem.store32 (tss task + 4) 0x20002000#32
  let mem := mem.store16 (tss task + 8) 0x0010#16
  let mem := mem.store16 (tss task + 72) (0x0038#16 ||| 0x0003#16)
  let mem := mem.store16 (tss task + 76) (0x0030#16 ||| 0x0003#16)
  let mem := mem.store16 (tss task + 80) (0x0038#16 ||| 0x0003#16)
  let mem := mem.store16 (tss task + 84) (0x0038#16 ||| 0x0003#16)
  let mem := mem.store16 (tss task + 88) (0x0038#16 ||| 0x0003#16)
  let mem := mem.store16 (tss task + 92) (0x0038#16 ||| 0x0003#16)
  mem.store32 (tss task + 28) (BitVec.ofNat 32 directory ||| 0x18#32)

/-- The stores of `task_init` before the task is put on the run queue. -/
def initTaskMemory (mem : Memory) (pages : TaskPages) (file : File)
    (taskId : Half) : Memory :=
  let mem := initPageDirectory mem pages.directory pages.table
  let mem := initPageTable mem pages.table file.dataBaseAddr pages.stack
  let mem := initSwitchRoutine mem pages.task taskId
  initTss mem pages.task pages.directory

/-- The index at which `task_init` installs the task state segment. -/
def tssIndex (taskId : Half) : Nat := taskId.toNat + gdtIdxOfs

def taskInit (machine : Machine) (file : File) : Machine :=
  let (pages, heap) := allocatePages machine.heapAllocTable
  let taskId := machine.taskIdCounter
  schedRunqEnq
    { machine with
      heapAllocTable := heap
      mem := initTaskMemory machine.mem pages file taskId
      taskIdCounter := machine.taskIdCounter + 1#16
      gdt :=
        initGdt machine.gdt (tssIndex taskId)
          (BitVec.ofNat 32 (tss pages.task)) (BitVec.ofNat 32 sizeofTss) 3#8 }
    pages.task

/-- The part of `task_init` which does not depend on the memory. -/
theorem taskInit_table (machine : Machine) (file : File) :
    (taskInit machine file).gdt =
        initGdt machine.gdt (tssIndex machine.taskIdCounter)
          (BitVec.ofNat 32 (tss (allocatePages machine.heapAllocTable).1.task))
          (BitVec.ofNat 32 sizeofTss) 3#8 ∧
      (taskInit machine file).taskIdCounter =
        machine.taskIdCounter + 1#16 := by
  cases allocated : allocatePages machine.heapAllocTable with
  | mk pages heap =>
      rw [taskInit, allocated]
      exact ⟨rfl, rfl⟩

/-! ## The pages of a task -/

namespace TaskPages

def all (pages : TaskPages) : List Nat :=
  [pages.directory, pages.table, pages.task, pages.stack]

section Members

variable (pages : TaskPages)

theorem directory_mem : pages.directory ∈ pages.all :=
  .head _

theorem table_mem : pages.table ∈ pages.all :=
  .tail _ (.head _)

theorem task_mem : pages.task ∈ pages.all :=
  .tail _ (.tail _ (.head _))

theorem stack_mem : pages.stack ∈ pages.all :=
  .tail _ (.tail _ (.tail _ (.head _)))

end Members

/-- The four addresses are those of four different heap pages. -/
structure Distinct (pages : TaskPages) : Prop where
  heap : ∀ page ∈ pages.all, IsHeapPage page
  nodup : pages.all.Nodup

namespace Distinct

variable {pages : TaskPages} (distinct : pages.Distinct)
include distinct

theorem heapDirectory : IsHeapPage pages.directory :=
  distinct.heap pages.directory pages.directory_mem

theorem heapTable : IsHeapPage pages.table :=
  distinct.heap pages.table pages.table_mem

theorem heapTask : IsHeapPage pages.task :=
  distinct.heap pages.task pages.task_mem

theorem heapStack : IsHeapPage pages.stack :=
  distinct.heap pages.stack pages.stack_mem

theorem ne_of :
    pages.directory ≠ pages.table ∧ pages.directory ≠ pages.task ∧
      pages.table ≠ pages.task ∧ pages.task ≠ pages.stack := by
  have nodup := distinct.nodup
  simp only [all, List.nodup_cons, List.mem_cons, List.not_mem_nil,
    or_false, not_or] at nodup
  tauto

end Distinct

end TaskPages

/-- The heap table after the allocations of `task_init`. -/
def takeTaskPages (table : HeapTable) : HeapTable :=
  takePage (takePage (takePage (takePage table)))

/-- The pages which `task_init` takes when there are enough free ones. -/
def nextTaskPages (table : HeapTable) : TaskPages where
  directory := heapPage (nextPage table)
  table := heapPage (nextPage (takePage table))
  task := heapPage (nextPage (takePage (takePage table)))
  stack := heapPage (nextPage (takePage (takePage (takePage table))))

section Allocation

variable {table : HeapTable}

private theorem free_of_four (free : 4 ≤ (freePages table).card) :
    0 < (freePages table).card ∧
      0 < (freePages (takePage table)).card ∧
      0 < (freePages (takePage (takePage table))).card ∧
      0 < (freePages (takePage (takePage (takePage table)))).card := by
  have first : 0 < (freePages table).card := by omega
  have firstCard := card_freePages_takePage first
  have second : 0 < (freePages (takePage table)).card := by omega
  have secondCard := card_freePages_takePage second
  have third : 0 < (freePages (takePage (takePage table))).card := by omega
  have thirdCard := card_freePages_takePage third
  exact ⟨first, second, third, by omega⟩

theorem allocatePages_of_free (free : 4 ≤ (freePages table).card) :
    allocatePages table = (nextTaskPages table, takeTaskPages table) := by
  rcases free_of_four free with ⟨first, second, third, fourth⟩
  simp only [allocatePages, memAlloc_of_free first, memAlloc_of_free second,
    memAlloc_of_free third, memAlloc_of_free fourth, nextTaskPages,
    takeTaskPages]

theorem live_takeTaskPages_iff {page : Nat} :
    Live (takeTaskPages table) page ↔
      Live table page ∨ heapPage page ∈ (nextTaskPages table).all := by
  simp only [takeTaskPages, live_takePage_iff, TaskPages.all, nextTaskPages,
    List.mem_cons, List.not_mem_nil, or_false, heapPage_inj]
  tauto

/-- The pages of a new task are free before its creation. -/
theorem not_live_of_mem_nextTaskPages (free : 4 ≤ (freePages table).card)
    {page : Nat} (member : heapPage page ∈ (nextTaskPages table).all) :
    ¬Live table page := by
  rcases free_of_four free with ⟨first, second, third, fourth⟩
  have firstFree := not_live_nextPage (nextPage_lt first)
  have secondFree := not_live_nextPage (nextPage_lt second)
  have thirdFree := not_live_nextPage (nextPage_lt third)
  have fourthFree := not_live_nextPage (nextPage_lt fourth)
  simp only [live_takePage_iff] at secondFree thirdFree fourthFree
  simp only [TaskPages.all, nextTaskPages, List.mem_cons, List.not_mem_nil,
    or_false, heapPage_inj] at member
  rcases member with rfl | rfl | rfl | rfl
  · exact firstFree
  · exact fun live => secondFree (.inl live)
  · exact fun live => thirdFree (.inl (.inl live))
  · exact fun live => fourthFree (.inl (.inl (.inl live)))

theorem nextTaskPages_distinct (free : 4 ≤ (freePages table).card) :
    (nextTaskPages table).Distinct := by
  rcases free_of_four free with ⟨first, second, third, fourth⟩
  have secondFree := not_live_nextPage (nextPage_lt second)
  have thirdFree := not_live_nextPage (nextPage_lt third)
  have fourthFree := not_live_nextPage (nextPage_lt fourth)
  simp only [live_takePage_iff] at secondFree thirdFree fourthFree
  constructor
  · intro page member
    simp only [TaskPages.all, nextTaskPages, List.mem_cons, List.not_mem_nil,
      or_false] at member
    rcases member with rfl | rfl | rfl | rfl
    · exact ⟨_, nextPage_lt first, rfl⟩
    · exact ⟨_, nextPage_lt second, rfl⟩
    · exact ⟨_, nextPage_lt third, rfl⟩
    · exact ⟨_, nextPage_lt fourth, rfl⟩
  · simp only [TaskPages.all, nextTaskPages, List.nodup_cons, List.mem_cons,
      List.not_mem_nil, or_false, not_false_eq_true, List.nodup_nil, and_true,
      heapPage_inj]
    grind

/-- After a prefix of the heap, a task takes the next four pages. -/
theorem nextTaskPages_of_heapPrefix {count : Nat} (holds : Prefix table count)
    (room : count + 4 ≤ maxHeapPages) :
    nextTaskPages table =
        { directory := heapPage count
          table := heapPage (count + 1)
          task := heapPage (count + 2)
          stack := heapPage (count + 3) } ∧
      Prefix (takeTaskPages table) (count + 4) := by
  have first := holds.takePage (by omega)
  have second := first.takePage (by omega)
  have third := second.takePage (by omega)
  have fourth := third.takePage (by omega)
  refine ⟨?_, fourth⟩
  rw [nextTaskPages, holds.nextPage_eq (by omega),
    first.nextPage_eq (by omega), second.nextPage_eq (by omega),
    third.nextPage_eq (by omega)]

end Allocation

/-! ## The page directory of a task -/

section Directory

variable (mem : Memory) (directory table : Nat)

/-- The cursor after the first entry of the page directory. -/
private def directoryStart : EntryCursor :=
  { put kernelDirectoryEntry
      { mem := mem, i := 0, entry := directory, pagingBaseAddr := 0#20 }
    with i := 1 }

private theorem initLowDirectory_stored :
    Stored directory (fun _ => 0#32) id (0x080 - 1)
      (directoryStart mem directory) (initLowDirectory mem directory) := by
  have start : (directoryStart mem directory).At directory := rfl
  exact loopTo_stored 0x080 start

/-- The cursor after the user entry: it is one entry ahead of its counter. -/
private def directoryMiddle : EntryCursor :=
  put (userEntry (pageNumber table)) (initLowDirectory mem directory)

private theorem directoryMiddle_at :
    (directoryMiddle mem directory table).At (directory + 4) :=
  (initLowDirectory_stored mem directory).at.put _

private theorem directoryMiddle_i :
    (directoryMiddle mem directory table).i = 0x080 := by
  have start : (directoryStart mem directory).i = 1 := rfl
  rw [directoryMiddle, put_i, (initLowDirectory_stored mem directory).i, start]

/-- Where the pointer stands when the user entry is written. -/
private theorem initLowDirectory_entry :
    (initLowDirectory mem directory).entry = directory + 4 * 0x080 := by
  have start : (directoryStart mem directory).i = 1 := rfl
  have low := initLowDirectory_stored mem directory
  rw [low.at, low.i, start]

private theorem directoryMiddle_frame :
    AgreeOutside (directoryMiddle mem directory table).mem
      (initLowDirectory mem directory).mem (directory + 4 * 0x080) 4 := by
  rw [directoryMiddle, put_mem, initLowDirectory_entry]
  exact store32_agreeOutside _ _ _

private theorem initPageDirectory_stored :
    Stored (directory + 4) (fun _ => 0#32) id (0x400 - 0x080)
      (directoryMiddle mem directory table)
      (loopTo 0x400 putZero (directoryMiddle mem directory table)) := by
  rw [← directoryMiddle_i mem directory table]
  exact loopTo_stored 0x400 (directoryMiddle_at mem directory table)

/-- The last loop writes behind the user entry, and one entry too far. -/
private theorem initPageDirectory_tail :
    AgreeOutside (initPageDirectory mem directory table)
      (directoryMiddle mem directory table).mem
      (directory + 4 * 0x081) (4 * 0x380) := by
  have tail := (initPageDirectory_stored mem directory table).frame
  rw [directoryMiddle_i] at tail
  exact tail.mono (by omega) (by omega)

private theorem initLowDirectory_frame :
    AgreeOutside (initLowDirectory mem directory).mem
      (directoryStart mem directory).mem (directory + 4) (4 * 0x07f) :=
  (initLowDirectory_stored mem directory).frame

/-- All of the page and the word behind it may be written. -/
theorem initPageDirectory_frame :
    AgreeOutside (initPageDirectory mem directory table) mem
      directory 0x1004 := by
  have first :
      AgreeOutside (directoryStart mem directory).mem mem directory 4 :=
    store32_agreeOutside mem directory kernelDirectoryEntry
  have low := initLowDirectory_frame mem directory
  have middle := directoryMiddle_frame mem directory table
  have tail := initPageDirectory_tail mem directory table
  exact (tail.mono (by omega) (by omega)).trans
    ((middle.mono (by omega) (by omega)).trans
      ((low.mono (by omega) (by omega)).trans
        (first.mono (by omega) (by omega))))

/-- The first entry is the one of the kernel page table. -/
theorem initPageDirectory_kernel :
    (initPageDirectory mem directory table).load32 directory =
      kernelDirectoryEntry := by
  have low :=
    (initLowDirectory_frame mem directory).agreeOn directory 4 (by omega)
  have middle :=
    (directoryMiddle_frame mem directory table).agreeOn directory 4
      (by omega)
  have tail :=
    (initPageDirectory_tail mem directory table).agreeOn directory 4
      (by omega)
  rw [tail.load32, middle.load32, low.load32]
  exact load32_store32_self mem directory kernelDirectoryEntry

/-- The user entry points to the page table of the task. -/
theorem initPageDirectory_user :
    (initPageDirectory mem directory table).load32 (directory + 4 * 0x080) =
      userEntry (pageNumber table) := by
  have tail :=
    (initPageDirectory_tail mem directory table).agreeOn
      (directory + 4 * 0x080) 4 (by omega)
  rw [tail.load32, directoryMiddle, put_mem, initLowDirectory_entry,
    load32_store32_self]

/-- Every other entry of the page is empty. -/
theorem initPageDirectory_unused (index : Nat) (positive : 0 < index)
    (notUser : index ≠ 0x080) (inTable : index < 0x400) :
    (initPageDirectory mem directory table).load32 (directory + 4 * index) =
      0#32 := by
  rcases Nat.lt_or_gt_of_ne notUser with below | above
  · have entry :=
      (initLowDirectory_stored mem directory).entries (index - 1) (by omega)
    have position :
        (directoryStart mem directory).i + (index - 1) = index := by
      change 1 + (index - 1) = index
      omega
    rw [position] at entry
    have middle :=
      (directoryMiddle_frame mem directory table).agreeOn
        (directory + 4 * index) 4 (by omega)
    have tail :=
      (initPageDirectory_tail mem directory table).agreeOn
        (directory + 4 * index) 4 (by omega)
    rw [tail.load32, middle.load32, entry]
  · have entry :=
      (initPageDirectory_stored mem directory table).entries
        (index - 0x081) (by omega)
    rw [directoryMiddle_i] at entry
    have position :
        directory + 4 + 4 * (0x080 + (index - 0x081)) =
          directory + 4 * index := by
      omega
    rw [position] at entry
    exact entry

/-- The last loop ends by clearing the word behind the page. -/
theorem initPageDirectory_overrun :
    (initPageDirectory mem directory table).load32 (directory + 0x1000) =
      0#32 := by
  have entry :=
    (initPageDirectory_stored mem directory table).entries 0x37f (by omega)
  rw [directoryMiddle_i] at entry
  have position :
      directory + 4 + 4 * (0x080 + 0x37f) = directory + 0x1000 := by
    omega
  rw [position] at entry
  exact entry

end Directory

/-! ## The page table of a task -/

section Table

variable (mem : Memory) (table data stack : Nat)

private theorem initPageTable_stored :
    Stored table (fun _ => 0#32) id (0x400 - 2)
      (initUserEntries mem table data stack)
      (loopTo 0x400 putZero (initUserEntries mem table data stack)) := by
  have start : (initUserEntries mem table data stack).At table := rfl
  exact loopTo_stored 0x400 start

private theorem initPageTable_tail :
    AgreeOutside (initPageTable mem table data stack)
      (initUserEntries mem table data stack).mem (table + 8) (4 * 0x3fe) :=
  (initPageTable_stored mem table data stack).frame

theorem initPageTable_frame :
    AgreeOutside (initPageTable mem table data stack) mem table 0x1000 := by
  have tail := initPageTable_tail mem table data stack
  have first :
      AgreeOutside (mem.store32 table (userEntry (pageNumber data))) mem
        table 4 :=
    store32_agreeOutside mem table _
  have second :
      AgreeOutside (initUserEntries mem table data stack).mem
        (mem.store32 table (userEntry (pageNumber data))) (table + 4) 4 :=
    store32_agreeOutside _ (table + 4) _
  exact (tail.mono (by omega) (by omega)).trans
    ((second.mono (by omega) (by omega)).trans
      (first.mono (by omega) (by omega)))

/-- The first entry maps the page of the file. -/
theorem initPageTable_data :
    (initPageTable mem table data stack).load32 table =
      userEntry (pageNumber data) := by
  have tail :=
    (initPageTable_tail mem table data stack).agreeOn table 4 (by omega)
  have second :
      AgreeOn (initUserEntries mem table data stack).mem
        (mem.store32 table (userEntry (pageNumber data))) table 4 :=
    (store32_agreeOutside _ (table + 4) _).agreeOn table 4 (by omega)
  rw [tail.load32, second.load32, load32_store32_self]

/-- The second entry maps the stack. -/
theorem initPageTable_stack :
    (initPageTable mem table data stack).load32 (table + 4) =
      userEntry (pageNumber stack) := by
  have tail :=
    (initPageTable_tail mem table data stack).agreeOn (table + 4) 4 (by omega)
  rw [tail.load32]
  exact load32_store32_self _ (table + 4) (userEntry (pageNumber stack))

/-- Every other entry is empty. -/
theorem initPageTable_unused (index : Nat) (lower : 2 ≤ index)
    (inTable : index < 0x400) :
    (initPageTable mem table data stack).load32 (table + 4 * index) =
      0#32 := by
  have entry :=
    (initPageTable_stored mem table data stack).entries (index - 2) (by omega)
  have position :
      (initUserEntries mem table data stack).i + (index - 2) = index := by
    change 2 + (index - 2) = index
    omega
  rw [position] at entry
  exact entry

end Table

/-! ## The task structure -/

section Structure

variable (mem : Memory) (task directory : Nat) (taskId : Half)

theorem initTss_frame :
    AgreeOutside (initTss mem task directory) mem (task + 12) 104 := by
  intro address outside
  simp only [initTss, tss]
  iterate 12
    first
    | rw [store32_agreeOutside _ _ _ address (by omega)]
    | rw [store16_agreeOutside _ _ _ address (by omega)]

theorem initSwitchRoutine_frame :
    AgreeOutside (initSwitchRoutine mem task taskId) mem (task + 8) 124 := by
  intro address outside
  simp only [initSwitchRoutine, contextSwitchFunc]
  rw [storePtr_agreeOutside _ _ _ address (by omega),
    store8_agreeOutside _ _ _ address (by omega),
    storeBytes_agreeOutside _ _ _ address (by
      simp only [contextSwitchTemplate, List.length_cons, List.length_nil]
      omega),
    store16_agreeOutside _ _ _ address (by omega)]

/-- The bytes of the template behind the patched one are not touched again. -/
private theorem initSwitchRoutine_byte (index : Nat) (lower : 8 ≤ index)
    (upper : index < 12) :
    initSwitchRoutine mem task taskId (contextSwitchFunc task + index) =
      ((((mem.store16 (task + 8) taskId).storeBytes (contextSwitchFunc task)
        contextSwitchTemplate).store8 (contextSwitchFunc task + 8)
          (selectorByte taskId))) (contextSwitchFunc task + index) := by
  rw [initSwitchRoutine]
  exact storePtr_agreeOutside _ _ _ _ (by rw [contextSwitchFunc]; omega)

/-- The patched routine loads the selector byte, with a zero upper byte. -/
theorem initSwitchRoutine_selector :
    (initSwitchRoutine mem task taskId).load16 (contextSwitchFunc task + 8) =
      (selectorByte taskId).setWidth 16 := by
  have low :
      initSwitchRoutine mem task taskId (contextSwitchFunc task + 8) =
        selectorByte taskId := by
    rw [initSwitchRoutine_byte mem task taskId 8 (by omega) (by omega),
      store8_self]
  have high :
      initSwitchRoutine mem task taskId (contextSwitchFunc task + 9) =
        0#8 := by
    rw [initSwitchRoutine_byte mem task taskId 9 (by omega) (by omega),
      store8_agreeOutside _ _ _ _ (by omega)]
    simp [contextSwitchTemplate, storeBytes, store8]
  have small : (selectorByte taskId).toNat < 65536 := by omega
  have joined :
      (0#8 ++ selectorByte taskId).toNat = (selectorByte taskId).toNat := by
    rw [BitVec.toNat_append]
    simp
  apply BitVec.eq_of_toNat_eq
  rw [Memory.load16, low, Nat.add_assoc, high, BitVec.toNat_setWidth,
    Nat.mod_eq_of_lt small]
  exact joined

theorem initSwitchRoutine_taskId :
    TaskStructure.taskId (initSwitchRoutine mem task taskId) task =
      taskId := by
  have untouched :
      AgreeOn (initSwitchRoutine mem task taskId)
        (mem.store16 (task + 8) taskId) (task + 8) 2 := by
    intro address lower upper
    simp only [initSwitchRoutine, contextSwitchFunc]
    rw [storePtr_agreeOutside _ _ _ address (by omega),
      store8_agreeOutside _ _ _ address (by omega),
      storeBytes_agreeOutside _ _ _ address (by omega)]
  rw [TaskStructure.taskId, untouched.load16, load16_store16_self]

end Structure

/-! ## The memory of a new task -/

/--
The tables `task_init` builds, apart from the first word of each, which the
clearing loop of a later page directory may reach.
-/
structure TaskTables (mem : Memory) (pages : TaskPages) : Prop where
  user : mem.load32 (pages.directory + 4 * 0x080) =
    userEntry (pageNumber pages.table)
  unusedDirectory : ∀ index, 0 < index → index ≠ 0x080 → index < 0x400 →
    mem.load32 (pages.directory + 4 * index) = 0#32
  stack : mem.load32 (pages.table + 4) = userEntry (pageNumber pages.stack)
  unusedTable : ∀ index, 2 ≤ index → index < 0x400 →
    mem.load32 (pages.table + 4 * index) = 0#32

section Memory

variable (mem : Memory) {pages : TaskPages} (file : File) (taskId : Half)

/-- The page table and the task structure are written after the directory. -/
theorem initTaskMemory_agreeOn_initPageDirectory (base size : Nat)
    (table : base + size ≤ pages.table ∨ pages.table + 0x1000 ≤ base)
    (task : base + size ≤ pages.task + 8 ∨ pages.task + 132 ≤ base) :
    AgreeOn (initTaskMemory mem pages file taskId)
      (initPageDirectory mem pages.directory pages.table) base size := by
  have second :=
    (initPageTable_frame (initPageDirectory mem pages.directory pages.table)
      pages.table file.dataBaseAddr pages.stack).agreeOn base size table
  have third :=
    (initSwitchRoutine_frame
      (initPageTable (initPageDirectory mem pages.directory pages.table)
        pages.table file.dataBaseAddr pages.stack)
      pages.task taskId).agreeOn base size (by omega)
  have fourth :=
    (initTss_frame
      (initSwitchRoutine
        (initPageTable (initPageDirectory mem pages.directory pages.table)
          pages.table file.dataBaseAddr pages.stack)
        pages.task taskId)
      pages.task pages.directory).agreeOn base size (by omega)
  exact fourth.trans (third.trans second)

/-- What `task_init` writes before the task is put on the run queue. -/
theorem initTaskMemory_agreeOn (base size : Nat)
    (directory :
      base + size ≤ pages.directory ∨ pages.directory + 0x1004 ≤ base)
    (table : base + size ≤ pages.table ∨ pages.table + 0x1000 ≤ base)
    (task : base + size ≤ pages.task + 8 ∨ pages.task + 132 ≤ base) :
    AgreeOn (initTaskMemory mem pages file taskId) mem base size := by
  have first :=
    (initPageDirectory_frame mem pages.directory pages.table).agreeOn
      base size directory
  exact (initTaskMemory_agreeOn_initPageDirectory mem file taskId base size
    table task).trans first

variable (distinct : pages.Distinct)
include distinct

/-- The task structure does not reach into the tables of the task. -/
private theorem initTaskMemory_agreeOn_page {page : Nat}
    (heap : IsHeapPage page) (notTask : page ≠ pages.task) :
    AgreeOn (initTaskMemory mem pages file taskId)
      (initPageTable (initPageDirectory mem pages.directory pages.table)
        pages.table file.dataBaseAddr pages.stack) page 0x1000 := by
  have apart := heap.apart distinct.heapTask notTask
  have third :=
    (initSwitchRoutine_frame
      (initPageTable (initPageDirectory mem pages.directory pages.table)
        pages.table file.dataBaseAddr pages.stack)
      pages.task taskId).agreeOn page 0x1000 (by omega)
  have fourth :=
    (initTss_frame
      (initSwitchRoutine
        (initPageTable (initPageDirectory mem pages.directory pages.table)
          pages.table file.dataBaseAddr pages.stack)
        pages.task taskId)
      pages.task pages.directory).agreeOn page 0x1000 (by omega)
  exact fourth.trans third

private theorem initTaskMemory_agreeOn_directory :
    AgreeOn (initTaskMemory mem pages file taskId)
      (initPageDirectory mem pages.directory pages.table)
      pages.directory 0x1000 := by
  rcases distinct.ne_of with ⟨notTable, notTask, _, _⟩
  have table := distinct.heapDirectory.apart distinct.heapTable notTable
  have task := distinct.heapDirectory.apart distinct.heapTask notTask
  exact initTaskMemory_agreeOn_initPageDirectory mem file taskId
    pages.directory 0x1000 (by omega) (by omega)

/-- The first entry of the page directory is the one of the kernel. -/
theorem initTaskMemory_kernel :
    (initTaskMemory mem pages file taskId).load32 pages.directory =
      kernelDirectoryEntry := by
  have agree :=
    (initTaskMemory_agreeOn_directory mem file taskId distinct).sub
      pages.directory 4 (by omega) (by omega)
  rw [agree.load32, initPageDirectory_kernel]

/-- The first entry of the page table maps the data of the file. -/
theorem initTaskMemory_data :
    (initTaskMemory mem pages file taskId).load32 pages.table =
      userEntry (pageNumber file.dataBaseAddr) := by
  rcases distinct.ne_of with ⟨_, _, notTask, _⟩
  have agree :=
    (initTaskMemory_agreeOn_page mem file taskId distinct distinct.heapTable
      notTask).sub pages.table 4 (by omega) (by omega)
  rw [agree.load32, initPageTable_data]

theorem initTaskMemory_tables :
    TaskTables (initTaskMemory mem pages file taskId) pages := by
  rcases distinct.ne_of with ⟨_, _, notTask, _⟩
  have directory :=
    initTaskMemory_agreeOn_directory mem file taskId distinct
  have table :=
    initTaskMemory_agreeOn_page mem file taskId distinct distinct.heapTable
      notTask
  constructor
  · rw [(directory.sub (pages.directory + 4 * 0x080) 4
      (by omega) (by omega)).load32, initPageDirectory_user]
  · intro index positive notUser inTable
    rw [(directory.sub (pages.directory + 4 * index) 4
      (by omega) (by omega)).load32,
      initPageDirectory_unused _ _ _ index positive notUser inTable]
  · rw [(table.sub (pages.table + 4) 4 (by omega) (by omega)).load32,
      initPageTable_stack]
  · intro index lower inTable
    rw [(table.sub (pages.table + 4 * index) 4
      (by omega) (by omega)).load32,
      initPageTable_unused _ _ _ _ index lower inTable]

end Memory

/-- The tables only depend on their own pages. -/
theorem TaskTables.congr {before after : Memory} {pages : TaskPages}
    (tables : TaskTables before pages)
    (directory : AgreeOn after before (pages.directory + 4) 0xffc)
    (table : AgreeOn after before (pages.table + 4) 0xffc) :
    TaskTables after pages where
  user :=
    ((directory.sub (pages.directory + 4 * 0x080) 4
      (by omega) (by omega)).load32).trans tables.user
  unusedDirectory := by
    intro index positive notUser inTable
    exact ((directory.sub (pages.directory + 4 * index) 4
      (by omega) (by omega)).load32).trans
        (tables.unusedDirectory index positive notUser inTable)
  stack :=
    ((table.sub (pages.table + 4) 4 (by omega) (by omega)).load32).trans
      tables.stack
  unusedTable := by
    intro index lower inTable
    exact ((table.sub (pages.table + 4 * index) 4
      (by omega) (by omega)).load32).trans
        (tables.unusedTable index lower inTable)

/-- A new task switches through the selector byte of its number. -/
theorem initTaskMemory_selector (mem : Memory) (pages : TaskPages)
    (file : File) (taskId : Half) :
    (initTaskMemory mem pages file taskId).load16
        (contextSwitchFunc pages.task + 8) =
      (selectorByte taskId).setWidth 16 := by
  have tss :=
    (initTss_frame
      (initSwitchRoutine
        (initPageTable (initPageDirectory mem pages.directory pages.table)
          pages.table file.dataBaseAddr pages.stack)
        pages.task taskId)
      pages.task pages.directory).agreeOn
      (contextSwitchFunc pages.task + 8) 2 (by
        rw [contextSwitchFunc]
        omega)
  rw [initTaskMemory, tss.load16, initSwitchRoutine_selector]

theorem initTaskMemory_taskId (mem : Memory) (pages : TaskPages)
    (file : File) (taskId : Half) :
    TaskStructure.taskId (initTaskMemory mem pages file taskId) pages.task =
      taskId := by
  have tss :=
    (initTss_frame
      (initSwitchRoutine
        (initPageTable (initPageDirectory mem pages.directory pages.table)
          pages.table file.dataBaseAddr pages.stack)
        pages.task taskId)
      pages.task pages.directory).agreeOn (pages.task + 8) 2 (by omega)
  have number :=
    initSwitchRoutine_taskId
      (initPageTable (initPageDirectory mem pages.directory pages.table)
        pages.table file.dataBaseAddr pages.stack) pages.task taskId
  rw [TaskStructure.taskId, initTaskMemory, tss.load16]
  exact number

end MagicalOs.Kernel.TaskCreation
