import MagicalOs.Kernel.KernelRuns

/-!
# Allocations and creations in any order

Here a run consists of calls of `mem_alloc`, `mem_free` and `task_init`.  Pages
may be freed and the heap may be exhausted, so a task no longer takes four
consecutive pages, some of them may be the null pointer, and the word which
`task_init` clears behind a page directory may be the first word of a page of
an earlier task: the entry of the kernel page table, the entry of the file, or
the backward link of a task structure.

`Tables` is the invariant which such a run keeps: it says which of these first
words are intact, and that everything behind them is.
-/

namespace MagicalOs.Kernel.HeapRuns

open MagicalOs.Library.ByteMemory
open MagicalOs.Library.ByteMemory.Memory
open MagicalOs.Kernel.HeapPages
open MagicalOs.Kernel.MachineState
open MagicalOs.Kernel.PageTables
open MagicalOs.Kernel.TaskStructure
open MagicalOs.Kernel.TaskCreation
open MagicalOs.Kernel.SchedQueues
open MagicalOs.Kernel.KernelRuns

/-! ## Runs -/

/-- A created task: its pages, and the file it executes. -/
structure TaskRecord where
  pages : TaskPages
  file : File
  deriving DecidableEq

/-- The task which `task_init` creates from a heap table. -/
def newTask (table : HeapTable) (file : File) : TaskRecord where
  pages := (allocatePages table).1
  file := file

/-- The page is one of those a task was given. -/
def Held (tasks : List TaskRecord) (page : Nat) : Prop :=
  ∃ task ∈ tasks, page ∈ task.pages.all

/--
The states which allocations, frees and creations lead to, with the tasks
created so far.  `mem_free` is given an address in the heap, and while a task
is created, no page of an earlier task is free.
-/
inductive HeapRun (layout : Layout) (mem : Memory)
    (Allowed : HeapTable → Prop) : Machine → List TaskRecord → Prop where
  | boot : HeapRun layout mem Allowed (boot layout mem) []
  | memAlloc {machine : Machine} {tasks : List TaskRecord}
      (before : HeapRun layout mem Allowed machine tasks) :
      HeapRun layout mem Allowed
        { machine with
          heapAllocTable := (memAlloc machine.heapAllocTable).2 }
        tasks
  | memFree {machine : Machine} {tasks : List TaskRecord} (page : Nat)
      (before : HeapRun layout mem Allowed machine tasks)
      (inHeap : pageIndex page < maxHeapPages) :
      HeapRun layout mem Allowed
        { machine with
          heapAllocTable := memFree machine.heapAllocTable page }
        tasks
  | taskInit {machine : Machine} {tasks : List TaskRecord} (file : File)
      (before : HeapRun layout mem Allowed machine tasks)
      (allowed : Allowed machine.heapAllocTable)
      (inUse : ∀ index, Held tasks (heapPage index) →
        Live machine.heapAllocTable index) :
      HeapRun layout mem Allowed (taskInit machine file)
        (tasks ++ [newTask machine.heapAllocTable file])

/-! ## The pages of the tasks -/

/-- Two addresses are different, or both are null. -/
def Separate (left right : Nat) : Prop := left = right → left = 0

theorem Separate.symm {left right : Nat} (separate : Separate left right) :
    Separate right left := by
  rintro rfl
  exact separate rfl

/-- What an allocation does, whether or not it finds a page. -/
structure Grants (before : HeapTable) (page : Nat) (after : HeapTable) :
    Prop where
  page : page ≠ 0 → ∃ index < maxHeapPages,
    page = heapPage index ∧ ¬Live before index ∧ Live after index
  keeps : ∀ index, Live before index → Live after index

theorem memAlloc_grants (table : HeapTable) :
    Grants table (memAlloc table).1 (memAlloc table).2 := by
  rcases Nat.lt_or_ge (nextPage table) maxHeapPages with found | exhausted
  · rw [memAlloc_of_lt found]
    constructor
    · intro _
      exact ⟨nextPage table, found, rfl, not_live_nextPage found,
        live_takePage_iff.mpr (.inr rfl)⟩
    · intro index live
      exact live_takePage_iff.mpr (.inl live)
  · rw [memAlloc_of_ge exhausted]
    exact ⟨fun nonNull => absurd rfl nonNull, fun _ live => live⟩

namespace Grants

variable {first second third : HeapTable} {page other : Nat}

theorem trans (left : Grants first page second)
    (right : Grants second other third) : Grants first other third where
  page := by
    intro nonNull
    rcases right.page nonNull with ⟨index, small, rfl, free, live⟩
    exact ⟨index, small, rfl, fun before => free (left.keeps index before),
      live⟩
  keeps := fun index live => right.keeps index (left.keeps index live)

/-- A page which is granted later is not one which was granted before. -/
theorem separate (left : Grants first page second)
    (right : Grants second other third) : Separate page other := by
  intro equal
  by_contra nonNull
  rcases left.page nonNull with ⟨index, _, rfl, _, live⟩
  rcases right.page (equal ▸ nonNull) with ⟨otherIndex, _, same, free, _⟩
  rw [← equal, heapPage_inj] at same
  exact free (same ▸ live)

end Grants

/-- The pages of a task: free pages of the heap, or null pointers. -/
structure Fresh (table : HeapTable) (pages : TaskPages) : Prop where
  free : ∀ page ∈ pages.all, page ≠ 0 → ∃ index < maxHeapPages,
    page = heapPage index ∧ ¬Live table index
  separate : pages.all.Pairwise Separate

theorem allocatePages_fresh (table : HeapTable) :
    Fresh table (allocatePages table).1 := by
  have first := memAlloc_grants table
  have second := memAlloc_grants (memAlloc table).2
  have third := memAlloc_grants (memAlloc (memAlloc table).2).2
  have fourth := memAlloc_grants (memAlloc (memAlloc (memAlloc table).2).2).2
  have toSecond := first.trans second
  have toThird := toSecond.trans third
  have secondToThird := second.trans third
  have freed {page : Nat} {after : HeapTable}
      (grants : Grants table page after) (nonNull : page ≠ 0) :
      ∃ index < maxHeapPages, page = heapPage index ∧ ¬Live table index := by
    rcases grants.page nonNull with ⟨index, small, equal, free, _⟩
    exact ⟨index, small, equal, free⟩
  constructor
  · intro page member
    simp only [allocatePages, TaskPages.all, List.mem_cons, List.not_mem_nil,
      or_false] at member
    rcases member with equal | equal | equal | equal
    · rw [equal]
      exact freed first
    · rw [equal]
      exact freed toSecond
    · rw [equal]
      exact freed toThird
    · rw [equal]
      exact freed (toThird.trans fourth)
  · simp only [allocatePages, TaskPages.all, List.pairwise_cons,
      List.mem_cons, List.not_mem_nil, or_false, forall_eq_or_imp,
      forall_eq, List.Pairwise.nil, and_true, IsEmpty.forall_iff, implies_true]
    exact
      ⟨⟨first.separate second, first.separate secondToThird,
        first.separate (secondToThird.trans fourth)⟩,
        ⟨second.separate third, second.separate (third.trans fourth)⟩,
        third.separate fourth⟩

/-- The pages of the tasks are heap pages, each given to one task only. -/
structure Pages (tasks : List TaskRecord) : Prop where
  heap : ∀ task ∈ tasks, ∀ page ∈ task.pages.all,
    page ≠ 0 → IsHeapPage page
  own : ∀ task ∈ tasks, task.pages.all.Pairwise Separate
  apart : tasks.Pairwise fun first second =>
    ∀ page ∈ first.pages.all, ∀ other ∈ second.pages.all,
      Separate page other

/-- The task structures of the tasks, and the null pointer. -/
def links (tasks : List TaskRecord) : List Nat :=
  0 :: tasks.map fun task => task.pages.task

namespace Pages

variable {tasks : List TaskRecord} {task other new : TaskRecord}
  {table : HeapTable} {page : Nat}

theorem nil : Pages [] :=
  ⟨by simp, by simp, .nil⟩

/-- The pages of a new task are not those of an earlier one. -/
theorem append (pages : Pages tasks) (fresh : Fresh table new.pages)
    (inUse : ∀ index, Held tasks (heapPage index) → Live table index) :
    Pages (tasks ++ [new]) := by
  constructor
  · intro task member page pageMem nonNull
    rcases List.mem_append.mp member with old | last
    · exact pages.heap task old page pageMem nonNull
    · rw [List.mem_singleton.mp last] at pageMem
      rcases fresh.free page pageMem nonNull with ⟨index, small, equal, _⟩
      exact ⟨index, small, equal⟩
  · intro task member
    rcases List.mem_append.mp member with old | last
    · exact pages.own task old
    · rw [List.mem_singleton.mp last]
      exact fresh.separate
  · refine List.pairwise_append.mpr
      ⟨pages.apart, List.pairwise_singleton _ _, ?_⟩
    intro task member last lastMem page pageMem otherPage otherMem equal
    rw [List.mem_singleton.mp lastMem] at otherMem
    by_contra nonNull
    rcases fresh.free otherPage otherMem (equal ▸ nonNull) with
      ⟨index, _, heap, free⟩
    exact free (inUse index ⟨task, member, heap ▸ equal ▸ pageMem⟩)

/-- A page of a task is a page of no other task. -/
theorem separate_of_ne (pages : Pages tasks) (taskMem : task ∈ tasks)
    (otherMem : other ∈ tasks) (different : task ≠ other) :
    ∀ page ∈ task.pages.all, ∀ otherPage ∈ other.pages.all,
      Separate page otherPage := by
  have symmetric : Std.Symm fun first second : TaskRecord =>
      ∀ page ∈ first.pages.all, ∀ other ∈ second.pages.all,
        Separate page other :=
    ⟨fun _ _ separate page pageMem other otherMem =>
      (separate other otherMem page pageMem).symm⟩
  exact pages.apart.forall taskMem otherMem different

/-- Page directories and page tables are no task structures. -/
theorem separate_task (pages : Pages tasks) (taskMem : task ∈ tasks)
    (otherMem : other ∈ tasks)
    (pageMem : page ∈ [task.pages.directory, task.pages.table]) :
    Separate page other.pages.task := by
  by_cases same : task = other
  · have own := pages.own task taskMem
    rw [← same]
    simp only [TaskPages.all, List.pairwise_cons, List.mem_cons,
      List.not_mem_nil, or_false, forall_eq_or_imp, forall_eq] at own
    rcases own with ⟨⟨_, directory, _⟩, ⟨table, _⟩, _⟩
    simp only [List.mem_cons, List.not_mem_nil, or_false] at pageMem
    rcases pageMem with rfl | rfl
    · exact directory
    · exact table
  · refine pages.separate_of_ne taskMem otherMem same page ?_
      other.pages.task other.pages.task_mem
    simp only [List.mem_cons, List.not_mem_nil, or_false] at pageMem
    rcases pageMem with rfl | rfl
    · exact task.pages.directory_mem
    · exact task.pages.table_mem

/-- The links of the run queue lie outside page directories and tables. -/
theorem outside_links (pages : Pages tasks) (taskMem : task ∈ tasks)
    (pageMem : page ∈ [task.pages.directory, task.pages.table])
    (nonNull : page ≠ 0) :
    ∀ link ∈ links tasks, page + 0x1000 ≤ link ∨ link + 8 ≤ page := by
  have inAll : page ∈ task.pages.all := by
    simp only [List.mem_cons, List.not_mem_nil, or_false] at pageMem
    rcases pageMem with rfl | rfl
    · exact task.pages.directory_mem
    · exact task.pages.table_mem
  have heap := pages.heap task taskMem page inAll nonNull
  have lower := heap.lower
  intro link member
  by_cases null : link = 0
  · omega
  · rcases List.mem_cons.mp member with zero | mapped
    · exact absurd zero null
    · rcases List.mem_map.mp mapped with ⟨other, otherMem, rfl⟩
      have separate := pages.separate_task taskMem otherMem pageMem
      have different : page ≠ other.pages.task := fun equal =>
        nonNull (separate equal)
      have otherHeap := pages.heap other otherMem other.pages.task
        other.pages.task_mem null
      have apart := heap.apart otherHeap different
      omega

theorem heap_links (pages : Pages tasks) :
    ∀ link ∈ links tasks, link ≠ 0 → IsHeapPage link := by
  intro link member nonNull
  rcases List.mem_cons.mp member with zero | mapped
  · exact absurd zero nonNull
  · rcases List.mem_map.mp mapped with ⟨task, taskMem, rfl⟩
    exact pages.heap task taskMem task.pages.task task.pages.task_mem
      nonNull

end Pages

/-! ## Putting a task on the run queue -/

/-- The links of a queue lead to known task structures, or to nothing. -/
structure Leads (mem : Memory) (queue : Queue) (known : List Nat) :
    Prop where
  heap : ∀ task ∈ known, task ≠ 0 → IsHeapPage task
  null : 0 ∈ known
  head : queue.head ∈ known
  prev : ∀ task ∈ known, task ≠ 0 → prev mem task ∈ known

section Enqueue

variable {mem after : Memory} {queue : Queue} {known : List Nat}
  {task other value : Nat}

private theorem prev_setNext_of_page (heap : task ≠ 0 → IsHeapPage task)
    (otherHeap : IsHeapPage other) :
    prev (setNext mem task value) other = prev mem other := by
  have lower := otherHeap.lower
  by_cases null : task = 0
  · exact loadPtr_storePtr_of_disjoint mem value (by omega)
  · exact prev_setNext (heap null) otherHeap

private theorem prev_setPrev_of_page (heap : task ≠ 0 → IsHeapPage task)
    (otherHeap : IsHeapPage other) (different : other ≠ task) :
    prev (setPrev mem task value) other = prev mem other := by
  have lower := otherHeap.lower
  by_cases null : task = 0
  · exact loadPtr_storePtr_of_disjoint mem value (by omega)
  · exact prev_setPrev_of_ne (heap null) otherHeap different

theorem Leads.small (leads : Leads mem queue known) (member : task ∈ known) :
    task < 2 ^ 32 := by
  by_cases null : task = 0
  · omega
  · exact (leads.heap task member null).small

/-- The links still lead to known tasks when some of them are cleared. -/
theorem Leads.congr (leads : Leads mem queue known)
    (agree : ∀ task ∈ known, task ≠ 0 → AgreeOn after mem task 4 ∨
      TaskStructure.prev after task = 0) : Leads after queue known where
  heap := leads.heap
  null := leads.null
  head := leads.head
  prev := by
    intro task member nonNull
    rcases agree task member nonNull with same | zero
    · rw [TaskStructure.prev, same.loadPtr]
      exact leads.prev task member nonNull
    · rw [zero]
      exact leads.null

/-- The memory and the head which an insertion leaves behind. -/
private theorem queueEnq_cases (leads : Leads mem queue known)
    (heap : task ≠ 0 → IsHeapPage task) (fresh : task ≠ 0 → task ∉ known) :
    (queue.head ≠ 0 ∧ queue.head ≠ task ∧
      (queueEnq mem queue task).2.head = queue.head ∧
      (queueEnq mem queue task).1 =
        linkLast mem queue.head (prev mem queue.head) task) ∨
    (queue.head = 0 ∧ (queueEnq mem queue task).2.head = task ∧
      (queueEnq mem queue task).1 = setNext (setPrev mem task task) task task)
    := by
  by_cases null : queue.head = 0
  · right
    simp [queueEnq, null]
  · left
    have headHeap := leads.heap queue.head leads.head null
    have different : queue.head ≠ task := by
      intro equal
      exact fresh (equal ▸ null) (equal ▸ leads.head)
    have unlinked :
        prev (setNext (setPrev mem task (prev mem queue.head)) task
          queue.head) queue.head = prev mem queue.head := by
      rw [prev_setNext_of_page heap headHeap,
        prev_setPrev_of_page heap headHeap different]
    refine ⟨null, different, ?_, ?_⟩
    · rw [queueEnq, if_pos null]
    · rw [queueEnq, if_pos null, linkLast]
      dsimp only
      rw [unlinked]

/-- An insertion writes the links of the task and of known tasks only. -/
theorem queueEnq_linksOnly_of_leads (leads : Leads mem queue known)
    (heap : task ≠ 0 → IsHeapPage task) (fresh : task ≠ 0 → task ∉ known) :
    LinksOnly mem (queueEnq mem queue task).1 (task :: known) := by
  rcases queueEnq_cases leads heap fresh with
    ⟨nonNull, _, _, equal⟩ | ⟨_, _, equal⟩
  · rw [equal]
    exact linkLast_linksOnly leads.head
      (leads.prev queue.head leads.head nonNull)
  · rw [equal]
    have member : task ∈ task :: known := by simp
    exact (LinksOnly.setPrev member).trans (.setNext member)

theorem queueEnq_leads (leads : Leads mem queue known)
    (heap : task ≠ 0 → IsHeapPage task) (fresh : task ≠ 0 → task ∉ known) :
    Leads (queueEnq mem queue task).1 (queueEnq mem queue task).2
      (known ++ [task]) := by
  have knownHeap : ∀ other ∈ known ++ [task], other ≠ 0 →
      IsHeapPage other := by
    intro other member nonNull
    rcases List.mem_append.mp member with old | last
    · exact leads.heap other old nonNull
    · rw [List.mem_singleton.mp last] at nonNull ⊢
      exact heap nonNull
  have taskSmall : task < 2 ^ 32 := by
    by_cases null : task = 0
    · omega
    · exact (heap null).small
  refine ⟨knownHeap, List.mem_append_left _ leads.null, ?_, ?_⟩
  · rcases queueEnq_cases leads heap fresh with
      ⟨_, _, same, _⟩ | ⟨_, equal, _⟩
    · rw [same]
      exact List.mem_append_left _ leads.head
    · rw [equal]
      simp
  · intro other member nonNull
    have otherHeap := knownHeap other member nonNull
    rcases queueEnq_cases leads heap fresh with
      ⟨headNonNull, different, _, equal⟩ | ⟨_, _, equal⟩
    · have lastMem := leads.prev queue.head leads.head headNonNull
      have headHeap := leads.heap queue.head leads.head headNonNull
      rw [equal, linkLast]
      by_cases isHead : other = queue.head
      · rw [isHead, prev_setPrev_self taskSmall]
        simp
      · rw [prev_setPrev_of_ne headHeap otherHeap isHead,
          prev_setNext_of_page (leads.heap _ lastMem) otherHeap,
          prev_setNext_of_page heap otherHeap]
        by_cases isTask : other = task
        · rw [isTask, prev_setPrev_self (leads.small lastMem)]
          exact List.mem_append_left _ lastMem
        · rw [prev_setPrev_of_page heap otherHeap isTask]
          refine List.mem_append_left _ (leads.prev other ?_ nonNull)
          simpa [isTask] using member
    · rw [equal, prev_setNext_of_page heap otherHeap]
      by_cases isTask : other = task
      · rw [isTask, prev_setPrev_self taskSmall]
        simp
      · rw [prev_setPrev_of_page heap otherHeap isTask]
        refine List.mem_append_left _ (leads.prev other ?_ nonNull)
        simpa [isTask] using member

end Enqueue

/-! ## The tables of the kernel and of the tasks -/

/-- The page directory of the later task does not end below the earlier one. -/
def Clear (earlier later : TaskRecord) : Prop :=
  later.pages.directory + pageSize ≠ earlier.pages.directory

/-- What a run keeps of the page directories and page tables. -/
structure Tables (mem : Memory) (tasks : List TaskRecord) : Prop where
  kernel : KernelTables mem
  directory : ∀ task ∈ tasks, task.pages.directory ≠ 0 →
    mem.load32 task.pages.directory = 0#32 ∨
      mem.load32 task.pages.directory = kernelDirectoryEntry
  intact : (∀ task ∈ tasks, task.pages.directory ≠ 0 →
      mem.load32 task.pages.directory = kernelDirectoryEntry) ↔
    tasks.Pairwise Clear
  tables : ∀ task ∈ tasks, task.pages.Distinct → TaskTables mem task.pages
  data : ∀ task ∈ tasks, task.pages.Distinct →
    mem.load32 task.pages.table = 0#32 ∨
      mem.load32 task.pages.table =
        userEntry (pageNumber task.file.dataBaseAddr)

section Creation

variable {mem : Memory} {table : HeapTable} {tasks : List TaskRecord}
  {task new : TaskRecord} {queue : Queue} {page : Nat} (taskId : Half)

/-- The pages of a new task are a page away from a page in use. -/
theorem Fresh.apart (fresh : Fresh table new.pages) (pages : Pages tasks)
    (inUse : ∀ index, Held tasks (heapPage index) → Live table index)
    (taskMem : task ∈ tasks) (pageMem : page ∈ task.pages.all)
    (nonNull : page ≠ 0) :
    ∀ other ∈ new.pages.all, page + 4096 ≤ other ∨ other + 4096 ≤ page := by
  intro other otherMem
  have heap := pages.heap task taskMem page pageMem nonNull
  have lower := heap.lower
  by_cases null : other = 0
  · omega
  · rcases fresh.free other otherMem null with ⟨index, small, rfl, free⟩
    have different : page ≠ heapPage index := by
      rintro rfl
      exact free (inUse index ⟨task, taskMem, pageMem⟩)
    exact heap.apart ⟨index, small, rfl⟩ different

/-- Of a page in use, a creation writes at most the first word. -/
theorem initTaskMemory_rest (fresh : Fresh table new.pages)
    (pages : Pages tasks)
    (inUse : ∀ index, Held tasks (heapPage index) → Live table index)
    (taskMem : task ∈ tasks) (pageMem : page ∈ task.pages.all)
    (nonNull : page ≠ 0) :
    AgreeOn (initTaskMemory mem new.pages new.file taskId) mem
      (page + 4) 0xffc := by
  have apart := fresh.apart pages inUse taskMem pageMem nonNull
  have directory := apart new.pages.directory new.pages.directory_mem
  have pageTable := apart new.pages.table new.pages.table_mem
  have structPage := apart new.pages.task new.pages.task_mem
  exact initTaskMemory_agreeOn mem new.file taskId (page + 4) 0xffc
    (by omega) (by omega) (by omega)

/-- The first word is cleared when the new page directory ends below it. -/
theorem initTaskMemory_first (fresh : Fresh table new.pages)
    (pages : Pages tasks)
    (inUse : ∀ index, Held tasks (heapPage index) → Live table index)
    (taskMem : task ∈ tasks) (pageMem : page ∈ task.pages.all)
    (nonNull : page ≠ 0) :
    (new.pages.directory + pageSize = page ∧
      (initTaskMemory mem new.pages new.file taskId).load32 page = 0#32) ∨
    (new.pages.directory + pageSize ≠ page ∧
      AgreeOn (initTaskMemory mem new.pages new.file taskId) mem page 4) := by
  have apart := fresh.apart pages inUse taskMem pageMem nonNull
  have directory := apart new.pages.directory new.pages.directory_mem
  have pageTable := apart new.pages.table new.pages.table_mem
  have structPage := apart new.pages.task new.pages.task_mem
  by_cases overrun : new.pages.directory + pageSize = page
  · left
    have cleared :=
      initPageDirectory_overrun mem new.pages.directory new.pages.table
    rw [pageSize] at overrun
    rw [overrun] at cleared
    have kept :
        AgreeOn (initTaskMemory mem new.pages new.file taskId)
          (initPageDirectory mem new.pages.directory new.pages.table)
          page 4 :=
      initTaskMemory_agreeOn_initPageDirectory mem new.file taskId page 4
        (by omega) (by omega)
    exact ⟨overrun, kept.load32.trans cleared⟩
  · right
    have aligned := (pages.heap task taskMem page pageMem nonNull).aligned
    have newAligned : new.pages.directory % 4096 = 0 := by
      by_cases null : new.pages.directory = 0
      · omega
      · rcases fresh.free new.pages.directory new.pages.directory_mem null
          with ⟨index, small, equal, _⟩
        exact IsHeapPage.aligned ⟨index, small, equal⟩
    rw [pageSize] at overrun
    refine ⟨by rwa [pageSize], ?_⟩
    exact initTaskMemory_agreeOn mem new.file taskId page 4
      (by omega) (by omega) (by omega)

/-- The queue still leads to known tasks after the stores of a creation. -/
theorem Leads.initTaskMemory (leads : Leads mem queue (links tasks))
    (fresh : Fresh table new.pages) (pages : Pages tasks)
    (inUse : ∀ index, Held tasks (heapPage index) → Live table index) :
    Leads (initTaskMemory mem new.pages new.file taskId) queue
      (links tasks) := by
  apply leads.congr
  intro link member nonNull
  rcases List.mem_cons.mp member with zero | mapped
  · exact absurd zero nonNull
  · rcases List.mem_map.mp mapped with ⟨task, taskMem, rfl⟩
    have pageMem : task.pages.task ∈ task.pages.all := by
      exact task.pages.task_mem
    rcases initTaskMemory_first taskId fresh pages inUse taskMem pageMem
      nonNull with ⟨_, cleared⟩ | ⟨_, agree⟩
    · right
      rw [TaskStructure.prev, loadPtr, cleared]
      rfl
    · exact .inl agree

/-- The new task structure is none of the known ones. -/
theorem Fresh.not_mem_links (fresh : Fresh table new.pages)
    (inUse : ∀ index, Held tasks (heapPage index) → Live table index)
    (nonNull : new.pages.task ≠ 0) : new.pages.task ∉ links tasks := by
  intro member
  rcases List.mem_cons.mp member with zero | mapped
  · exact nonNull zero
  · rcases List.mem_map.mp mapped with ⟨task, taskMem, equal⟩
    rcases fresh.free new.pages.task new.pages.task_mem nonNull with
      ⟨index, _, heap, free⟩
    refine free (inUse index ⟨task, taskMem, ?_⟩)
    rw [← heap, ← equal]
    exact task.pages.task_mem

theorem Fresh.heap (fresh : Fresh table new.pages)
    (pageMem : page ∈ new.pages.all) (nonNull : page ≠ 0) :
    IsHeapPage page := by
  rcases fresh.free page pageMem nonNull with ⟨index, small, equal, _⟩
  exact ⟨index, small, equal⟩

/-- The kernel tables are not written by a creation. -/
theorem KernelTables.initTaskMemory (kernel : KernelTables mem)
    (fresh : Fresh table new.pages) :
    KernelTables (initTaskMemory mem new.pages new.file taskId) := by
  have outside : ∀ page ∈ new.pages.all, page = 0 ∨ 0x100000 ≤ page := by
    intro page pageMem
    by_cases null : page = 0
    · exact .inl null
    · exact .inr (fresh.heap pageMem null).lower
  have directory := outside new.pages.directory new.pages.directory_mem
  have pageTable := outside new.pages.table new.pages.table_mem
  have structPage := outside new.pages.task new.pages.task_mem
  exact kernel.congr
    (initTaskMemory_agreeOn mem new.file taskId 0x8f000 0x2000
      (by omega) (by omega) (by omega))

theorem links_append (tasks : List TaskRecord) (new : TaskRecord) :
    links (tasks ++ [new]) = links tasks ++ [new.pages.task] := by
  simp [links]

end Creation

/-! ## The invariant of a run -/

/-- The tasks own their pages, the run queue leads to them, and their tables. -/
structure Invariant (machine : Machine) (tasks : List TaskRecord) : Prop where
  pages : Pages tasks
  leads : Leads machine.mem machine.runQueue (links tasks)
  tables : Tables machine.mem tasks

section Step

variable {mem after : Memory} {table : HeapTable} {tasks : List TaskRecord}
  {new : TaskRecord} {taskId : Half}

/-- What is left of the tables when only the links are written. -/
theorem Tables.linksOnly (tables : Tables mem tasks) (pages : Pages tasks)
    (linked : LinksOnly mem after (links tasks)) : Tables after tasks := by
  have low : ∀ link ∈ links tasks, 0x91000 ≤ link ∨ link + 8 ≤ 0x8f000 := by
    intro link member
    by_cases null : link = 0
    · omega
    · have lower := (pages.heap_links link member null).lower
      omega
  have kept {task : TaskRecord} {page : Nat} (taskMem : task ∈ tasks)
      (pageMem : page ∈ [task.pages.directory, task.pages.table])
      (nonNull : page ≠ 0) : AgreeOn after mem page 0x1000 :=
    linked.agreeOn (pages.outside_links taskMem pageMem nonNull)
  have word {task : TaskRecord} {page : Nat} (taskMem : task ∈ tasks)
      (pageMem : page ∈ [task.pages.directory, task.pages.table])
      (nonNull : page ≠ 0) : after.load32 page = mem.load32 page :=
    ((kept taskMem pageMem nonNull).sub page 4 (by omega) (by omega)).load32
  constructor
  · exact tables.kernel.congr (linked.agreeOn low)
  · intro task taskMem nonNull
    rw [word taskMem (by simp) nonNull]
    exact tables.directory task taskMem nonNull
  · rw [← tables.intact]
    constructor
    · intro intact task taskMem nonNull
      rw [← word taskMem (by simp) nonNull]
      exact intact task taskMem nonNull
    · intro intact task taskMem nonNull
      rw [word taskMem (by simp) nonNull]
      exact intact task taskMem nonNull
  · intro task taskMem distinct
    refine (tables.tables task taskMem distinct).congr ?_ ?_
    · exact (kept taskMem (by simp) distinct.heapDirectory.ne_null).sub _ _
        (by omega) (by omega)
    · exact (kept taskMem (by simp) distinct.heapTable.ne_null).sub _ _
        (by omega) (by omega)
  · intro task taskMem distinct
    rw [word taskMem (by simp) distinct.heapTable.ne_null]
    exact tables.data task taskMem distinct

/-- The first word of a new page directory is the kernel entry. -/
theorem Fresh.kernel (fresh : Fresh table new.pages)
    (nonNull : new.pages.directory ≠ 0) :
    (initTaskMemory mem new.pages new.file taskId).load32
        new.pages.directory = kernelDirectoryEntry := by
  have heap := fresh.heap new.pages.directory_mem nonNull
  have lower := heap.lower
  have own := fresh.separate
  simp only [TaskPages.all, List.pairwise_cons, List.mem_cons,
    List.not_mem_nil, or_false, forall_eq_or_imp, forall_eq] at own
  rcases own with ⟨⟨notTable, notTask, _⟩, _⟩
  have apart {other : Nat} (otherMem : other ∈ new.pages.all)
      (separate : Separate new.pages.directory other) :
      new.pages.directory + 4096 ≤ other ∨
        other + 4096 ≤ new.pages.directory := by
    by_cases null : other = 0
    · omega
    · exact heap.apart (fresh.heap otherMem null)
        fun equal => nonNull (separate equal)
  have pageTable := apart new.pages.table_mem notTable
  have structPage := apart new.pages.task_mem notTask
  have kept :
      AgreeOn (initTaskMemory mem new.pages new.file taskId)
        (initPageDirectory mem new.pages.directory new.pages.table)
        new.pages.directory 4 :=
    initTaskMemory_agreeOn_initPageDirectory mem new.file taskId _ 4
      (by omega) (by omega)
  rw [kept.load32, initPageDirectory_kernel]

/-- Every intact page directory stays intact unless it is overrun. -/
private theorem directory_initTaskMemory (taskId : Half)
    (tables : Tables mem tasks) (pages : Pages tasks)
    (fresh : Fresh table new.pages)
    (inUse : ∀ index, Held tasks (heapPage index) → Live table index) :
    (∀ task ∈ tasks, task.pages.directory ≠ 0 →
      (initTaskMemory mem new.pages new.file taskId).load32
        task.pages.directory = kernelDirectoryEntry) ↔
    tasks.Pairwise Clear ∧ ∀ task ∈ tasks, Clear task new := by
  rw [← tables.intact]
  constructor
  · intro intact
    constructor
    · intro task taskMem nonNull
      have entry := intact task taskMem nonNull
      rcases initTaskMemory_first taskId fresh pages inUse taskMem
        task.pages.directory_mem nonNull with ⟨_, cleared⟩ | ⟨_, agree⟩
      · rw [cleared] at entry
        exact absurd entry (by decide)
      · rw [← entry, agree.load32]
    · intro task taskMem overrun
      have nonNull : task.pages.directory ≠ 0 := by
        rw [pageSize] at overrun
        omega
      have entry := intact task taskMem nonNull
      rcases initTaskMemory_first taskId fresh pages inUse taskMem
        task.pages.directory_mem nonNull with ⟨_, cleared⟩ | ⟨clear, _⟩
      · rw [cleared] at entry
        exact absurd entry (by decide)
      · exact clear overrun
  · rintro ⟨intact, clear⟩ task taskMem nonNull
    rcases initTaskMemory_first taskId fresh pages inUse taskMem
      task.pages.directory_mem nonNull with ⟨overrun, _⟩ | ⟨_, agree⟩
    · exact absurd overrun (clear task taskMem)
    · rw [agree.load32]
      exact intact task taskMem nonNull

/-- A creation adds the tables of the new task. -/
theorem Tables.initTaskMemory (tables : Tables mem tasks)
    (pages : Pages tasks) (fresh : Fresh table new.pages)
    (inUse : ∀ index, Held tasks (heapPage index) → Live table index) :
    Tables (initTaskMemory mem new.pages new.file taskId)
      (tasks ++ [new]) := by
  constructor
  · exact KernelTables.initTaskMemory taskId tables.kernel fresh
  · intro task member nonNull
    rcases List.mem_append.mp member with old | last
    · rcases initTaskMemory_first taskId fresh pages inUse old
        task.pages.directory_mem nonNull with ⟨_, cleared⟩ | ⟨_, agree⟩
      · exact .inl cleared
      · rw [agree.load32]
        exact tables.directory task old nonNull
    · rw [List.mem_singleton.mp last] at nonNull ⊢
      exact .inr (fresh.kernel nonNull)
  · have earlier :=
      directory_initTaskMemory taskId tables pages fresh inUse
    constructor
    · intro intact
      rcases earlier.mp fun task taskMem =>
        intact task (List.mem_append_left _ taskMem) with ⟨clear, last⟩
      exact List.pairwise_append.mpr
        ⟨clear, List.pairwise_singleton _ _, by simpa using last⟩
    · intro clear
      rcases List.pairwise_append.mp clear with ⟨old, _, last⟩
      have intact := earlier.mpr
        ⟨old, fun task taskMem => last task taskMem new (by simp)⟩
      intro task member nonNull
      rcases List.mem_append.mp member with taskMem | isNew
      · exact intact task taskMem nonNull
      · rw [List.mem_singleton.mp isNew] at nonNull ⊢
        exact fresh.kernel nonNull
  · intro task member distinct
    rcases List.mem_append.mp member with old | last
    · refine (tables.tables task old distinct).congr ?_ ?_
      · exact initTaskMemory_rest taskId fresh pages inUse old
          task.pages.directory_mem distinct.heapDirectory.ne_null
      · exact initTaskMemory_rest taskId fresh pages inUse old
          task.pages.table_mem distinct.heapTable.ne_null
    · rw [List.mem_singleton.mp last] at distinct ⊢
      exact initTaskMemory_tables mem new.file taskId distinct
  · intro task member distinct
    rcases List.mem_append.mp member with old | last
    · rcases initTaskMemory_first taskId fresh pages inUse old
        task.pages.table_mem distinct.heapTable.ne_null with
        ⟨_, cleared⟩ | ⟨_, agree⟩
      · exact .inl cleared
      · rw [agree.load32]
        exact tables.data task old distinct
    · rw [List.mem_singleton.mp last] at distinct ⊢
      exact .inr (initTaskMemory_data mem new.file taskId distinct)

end Step

section Run

variable {layout : Layout} {mem : Memory} {Allowed : HeapTable → Prop}
  {machine : Machine} {tasks : List TaskRecord}

/-- The memory of a creation before the task is put on the run queue. -/
def creationMemory (machine : Machine) (file : File) : Memory :=
  initTaskMemory machine.mem (newTask machine.heapAllocTable file).pages
    (newTask machine.heapAllocTable file).file machine.taskIdCounter

theorem taskInit_queueEnq (machine : Machine) (file : File) :
    (taskInit machine file).mem =
        (queueEnq (creationMemory machine file) machine.runQueue
          (newTask machine.heapAllocTable file).pages.task).1 ∧
      (taskInit machine file).runQueue =
        (queueEnq (creationMemory machine file) machine.runQueue
          (newTask machine.heapAllocTable file).pages.task).2 := by
  rw [creationMemory, newTask]
  cases allocated : allocatePages machine.heapAllocTable with
  | mk pages heap =>
      constructor
      · simp only [taskInit, allocated, schedRunqEnq]
      · simp only [taskInit, allocated, schedRunqEnq]

theorem newTask_fresh (table : HeapTable) (file : File) :
    Fresh table (newTask table file).pages := by
  have pages : (newTask table file).pages = (allocatePages table).1 := by
    rw [newTask]
  rw [pages]
  exact allocatePages_fresh table

/-- The queue leads to the new task, and only links have been written. -/
theorem Invariant.taskInit_links (holds : Invariant machine tasks)
    (file : File)
    (inUse : ∀ index, Held tasks (heapPage index) →
      Live machine.heapAllocTable index) :
    Leads (TaskCreation.taskInit machine file).mem
        (TaskCreation.taskInit machine file).runQueue
        (links (tasks ++ [newTask machine.heapAllocTable file])) ∧
      LinksOnly (creationMemory machine file)
        (TaskCreation.taskInit machine file).mem
        (links (tasks ++ [newTask machine.heapAllocTable file])) := by
  have fresh := newTask_fresh machine.heapAllocTable file
  rcases taskInit_queueEnq machine file with ⟨memory, queue⟩
  rw [memory, queue, creationMemory]
  generalize newTask machine.heapAllocTable file = new at fresh ⊢
  have taskHeap : new.pages.task ≠ 0 → IsHeapPage new.pages.task :=
    fresh.heap new.pages.task_mem
  have unknown : new.pages.task ≠ 0 → new.pages.task ∉ links tasks :=
    fresh.not_mem_links inUse
  have leads :=
    holds.leads.initTaskMemory machine.taskIdCounter fresh holds.pages inUse
  rw [links_append]
  constructor
  · exact queueEnq_leads leads taskHeap unknown
  · apply (queueEnq_linksOnly_of_leads leads taskHeap unknown).mono
    intro link member
    rcases List.mem_cons.mp member with rfl | known
    · simp
    · exact List.mem_append_left _ known

/-- A creation keeps the invariant. -/
theorem Invariant.taskInit (holds : Invariant machine tasks) (file : File)
    (inUse : ∀ index, Held tasks (heapPage index) →
      Live machine.heapAllocTable index) :
    Invariant (taskInit machine file)
      (tasks ++ [newTask machine.heapAllocTable file]) := by
  have fresh := newTask_fresh machine.heapAllocTable file
  rcases holds.taskInit_links file inUse with ⟨leads, linked⟩
  have pages := holds.pages.append fresh inUse
  exact ⟨pages, leads,
    (holds.tables.initTaskMemory holds.pages fresh inUse).linksOnly pages
      linked⟩

/-- The first word of a page table is kept unless a directory ends below. -/
theorem Invariant.taskInit_data (holds : Invariant machine tasks)
    (file : File)
    (inUse : ∀ index, Held tasks (heapPage index) →
      Live machine.heapAllocTable index) {task : TaskRecord}
    (taskMem : task ∈ tasks) (nonNull : task.pages.table ≠ 0)
    (clear :
      (newTask machine.heapAllocTable file).pages.directory + pageSize ≠
        task.pages.table) :
    (TaskCreation.taskInit machine file).mem.load32 task.pages.table =
      machine.mem.load32 task.pages.table := by
  have fresh := newTask_fresh machine.heapAllocTable file
  rcases holds.taskInit_links file inUse with ⟨_, linked⟩
  have pages := holds.pages.append fresh inUse
  have outside := pages.outside_links (List.mem_append_left _ taskMem)
    (by simp) nonNull
  have kept := (linked.agreeOn outside).sub task.pages.table 4
    (by omega) (by omega)
  rw [kept.load32]
  rcases initTaskMemory_first machine.taskIdCounter fresh holds.pages inUse
    taskMem task.pages.table_mem nonNull with ⟨overrun, _⟩ | ⟨_, agree⟩
  · exact absurd overrun clear
  · exact agree.load32

/-- The page table of the new task maps the data of its file. -/
theorem Invariant.taskInit_newData (holds : Invariant machine tasks)
    (file : File)
    (inUse : ∀ index, Held tasks (heapPage index) →
      Live machine.heapAllocTable index)
    (distinct : (newTask machine.heapAllocTable file).pages.Distinct) :
    (TaskCreation.taskInit machine file).mem.load32
        (newTask machine.heapAllocTable file).pages.table =
      userEntry (pageNumber file.dataBaseAddr) := by
  have fresh := newTask_fresh machine.heapAllocTable file
  rcases holds.taskInit_links file inUse with ⟨_, linked⟩
  have pages := holds.pages.append fresh inUse
  have outside := pages.outside_links (List.mem_append_right _
    (List.mem_singleton_self _)) (by simp) distinct.heapTable.ne_null
  have kept := (linked.agreeOn outside).sub
    (newTask machine.heapAllocTable file).pages.table 4 (by omega) (by omega)
  rw [kept.load32]
  exact initTaskMemory_data machine.mem file machine.taskIdCounter distinct

/-- The kernel task is set up inside the kernel image. -/
theorem kernTaskInit_agreeOn (layout : Layout) (machine : Machine) :
    AgreeOn (kernTaskInit layout machine).mem machine.mem 0x8f000 0x2000 :=
  fun _ above _ => kernTaskInit_frame layout machine (by omega)

theorem boot_kernelTables (layout : Layout) (mem : Memory) :
    KernelTables (boot layout mem).mem := by
  have kernel := memInit_kernelTables mem
  rw [boot]
  generalize memInit mem = initial at kernel ⊢
  exact kernel.congr (kernTaskInit_agreeOn layout (staticMachine initial))

theorem boot_invariant (layout : Layout) (mem : Memory) :
    Invariant (boot layout mem) [] where
  pages := .nil
  leads :=
    { heap := by simp [links]
      null := by simp [links]
      head := by simp [links, boot, kernTaskInit, staticMachine]
      prev := by simp [links] }
  tables :=
    { kernel := boot_kernelTables layout mem
      directory := by simp
      intact := by simp
      tables := by simp
      data := by simp }

/-- The invariant holds in every state of a run. -/
theorem HeapRun.invariant
    (run : HeapRun layout mem Allowed machine tasks) :
    Invariant machine tasks := by
  induction run with
  | boot => exact boot_invariant layout mem
  | memAlloc before induction =>
      exact ⟨induction.pages, induction.leads, induction.tables⟩
  | memFree page before inHeap induction =>
      exact ⟨induction.pages, induction.leads, induction.tables⟩
  | taskInit file before allowed inUse induction =>
      exact induction.taskInit file inUse

end Run

end MagicalOs.Kernel.HeapRuns
