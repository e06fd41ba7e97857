import MagicalOs.Kernel.AddressSpaces

/-!
# Where task creation stores

An address is stored to when some content of it does not survive the creation.
With four free pages these addresses are in the pages of the new task and in
the links of the run queue, unless the page behind the page directory is in
use: the clearing loop of the directory reaches the first word of that page,
and where this word is the backward link of the queue, the insertion follows
it to the null pointer.
-/

namespace MagicalOs.Kernel.CreationStores

open MagicalOs.Library.ByteMemory
open MagicalOs.Library.ByteMemory.Memory
open MagicalOs.Kernel.Descriptors
open MagicalOs.Kernel.HeapPages
open MagicalOs.Kernel.MachineState
open MagicalOs.Kernel.TaskStructure
open MagicalOs.Kernel.TaskCreation
open MagicalOs.Kernel.SchedQueues
open MagicalOs.Kernel.HeapRuns
open MagicalOs.Kernel.TaskIsolation
open MagicalOs.Kernel.AddressSpaces

/-! ## The stores of a creation -/

/-- The machine with another byte at an address. -/
def withByte (machine : Machine) (address : Nat) (value : Byte) : Machine :=
  { machine with mem := machine.mem.store8 address value }

/-- The creation stores to the address. -/
def Stores (machine : Machine) (file : File) (address : Nat) : Prop :=
  ∃ value, (taskInit (withByte machine address value) file).mem address ≠ value

/-- The machine with another entry in the descriptor table. -/
def withEntry (machine : Machine) (index : Nat) (entry : SegmentDescriptor) :
    Machine :=
  { machine with gdt := Function.update machine.gdt index entry }

/-- The creation stores to the entry of the descriptor table. -/
def StoresEntry (machine : Machine) (file : File) (index : Nat) : Prop :=
  ∃ entry, (taskInit (withEntry machine index entry) file).gdt index ≠ entry

/-- The address is in one of the four pages which are allocated. -/
def InNewPages (table : HeapTable) (address : Nat) : Prop :=
  ∃ page ∈ (nextTaskPages table).all,
    page ≤ address ∧ address < page + pageSize

/--
The address is in the backward link of the head of the run queue, or in the
forward link of its last task.
-/
def RunQueueLink (machine : Machine) (address : Nat) : Prop :=
  machine.runQueue.head ≠ 0 ∧
    ((machine.runQueue.head ≤ address ∧
        address < machine.runQueue.head + 4) ∨
      (prev machine.mem machine.runQueue.head ≠ 0 ∧
        prev machine.mem machine.runQueue.head + 4 ≤ address ∧
        address < prev machine.mem machine.runQueue.head + 8))

/-- The creation stores only where it should. -/
structure Confined (machine : Machine) (file : File) : Prop where
  memory : ∀ address, Stores machine file address →
    InNewPages machine.heapAllocTable address ∨ RunQueueLink machine address
  unchanged : ∀ address, ¬InNewPages machine.heapAllocTable address →
    ¬RunQueueLink machine address →
      (taskInit machine file).mem address = machine.mem address
  gdt : ∃ index < gdtSize, ∀ other,
    StoresEntry machine file other → other = index
  heap : ∀ page,
    heapPage page ∉ (nextTaskPages machine.heapAllocTable).all →
      (taskInit machine file).heapAllocTable page =
        machine.heapAllocTable page
  rest :
    { taskInit machine file with
        mem := machine.mem
        heapAllocTable := machine.heapAllocTable
        gdt := machine.gdt
        taskIdCounter := machine.taskIdCounter
        runQueue := machine.runQueue } = machine

/-! ## The states in which a task is created -/

/-- The address is that of a page which was handed out. -/
def InUse (table : HeapTable) (page : Nat) : Prop :=
  ∃ index < maxHeapPages, page = heapPage index ∧ Live table index

/-- The links which the insertion follows lead to pages in use, or nowhere. -/
structure LinksInUse (machine : Machine) : Prop where
  head : machine.runQueue.head ≠ 0 →
    InUse machine.heapAllocTable machine.runQueue.head
  last : machine.runQueue.head ≠ 0 →
    prev machine.mem machine.runQueue.head ≠ 0 →
      InUse machine.heapAllocTable (prev machine.mem machine.runQueue.head)

theorem linksInUse_of_queueInUse {machine : Machine} {known : List Nat}
    (queue : QueueInUse machine known) : LinksInUse machine where
  head := fun nonNull => queue.inUse _ queue.leads.head nonNull
  last := fun nonNull lastNonNull =>
    queue.inUse _ (queue.leads.prev _ queue.leads.head nonNull) lastNonNull

/-- A run of allocations, frees and creations in which no task is freed. -/
theorem linksInUse_of_heapRun {layout : Layout} {mem : Memory}
    {Allowed : HeapTable → Prop} {machine : Machine}
    {tasks : List TaskRecord}
    (run : HeapRun layout mem Allowed machine tasks)
    (inUse : ∀ index, Held tasks (heapPage index) →
      Live machine.heapAllocTable index) :
    LinksInUse machine :=
  linksInUse_of_queueInUse (queueInUse_of_invariant run.invariant inUse)

/-! ## The page behind the page directory -/

section Behind

variable {table : HeapTable}

/-- A free page behind the first one is the second one. -/
theorem nextPage_takePage
    (found : nextPage (takePage table) < maxHeapPages)
    (behind : ¬Live table (nextPage table + 1)) :
    nextPage (takePage table) = nextPage table + 1 := by
  have free := not_live_nextPage found
  rw [live_takePage_iff, not_or] at free
  have stillFree : ¬Live (takePage table) (nextPage table + 1) := by
    rw [live_takePage_iff]
    rintro (live | same)
    · exact behind live
    · omega
  have upper := nextPage_le stillFree
  have lower := nextPage_le free.1
  have different := free.2
  omega

/-- While four pages are free, a page behind the first one is in the heap. -/
theorem behind_lt (free : FourFree table) :
    nextPage table + 1 < maxHeapPages ∧
      nextPage (takePage table) < maxHeapPages := by
  have four : 4 ≤ (freePages table).card := free
  have first : 0 < (freePages table).card := by omega
  have card := card_freePages_takePage first
  have found : nextPage (takePage table) < maxHeapPages :=
    nextPage_lt (by omega)
  have later := not_live_nextPage found
  rw [live_takePage_iff, not_or] at later
  have lower := nextPage_le later.1
  have different := later.2
  exact ⟨by omega, found⟩

/-- The page table follows the page directory when the page there is free. -/
theorem table_eq (free : FourFree table)
    (behind : ¬Live table (nextPage table + 1)) :
    (nextTaskPages table).table =
      (nextTaskPages table).directory + pageSize := by
  have next := nextPage_takePage (behind_lt free).2 behind
  change heapPage (nextPage (takePage table)) =
    heapPage (nextPage table) + pageSize
  rw [next, heapPage_eq, heapPage_eq, pageSize]
  omega

theorem directory_overrun (table : HeapTable) :
    (nextTaskPages table).directory + 0x1000 =
      heapPage (nextPage table + 1) := by
  change heapPage (nextPage table) + 0x1000 = _
  rw [heapPage_eq, heapPage_eq]
  omega

end Behind

/-! ## The memory before the insertion -/

section Memory

variable {machine : Machine} {file : File} {page address : Nat}

theorem creationMemory_eq (free : FourFree machine.heapAllocTable) :
    creationMemory machine file =
      initTaskMemory machine.mem (nextTaskPages machine.heapAllocTable) file
        machine.taskIdCounter := by
  rw [creationMemory, newTask_pages free]
  rfl

/-- A page in use is none of the new ones. -/
theorem InUse.not_inNewPages (free : FourFree machine.heapAllocTable)
    (inUse : InUse machine.heapAllocTable page)
    (inPage : page ≤ address ∧ address < page + pageSize) :
    ¬InNewPages machine.heapAllocTable address := by
  rcases inUse with ⟨index, small, rfl, live⟩
  rintro ⟨new, member, inNew⟩
  have apart := apart_nextTaskPages free small live member
  rw [pageSize] at inPage inNew
  omega

theorem InUse.heap {table : HeapTable} (inUse : InUse table page) :
    IsHeapPage page := by
  rcases inUse with ⟨index, small, rfl, _⟩
  exact ⟨index, small, rfl⟩

/-- The number of a page in use is live. -/
theorem InUse.live {table : HeapTable} {index : Nat}
    (inUse : InUse table (heapPage index)) : Live table index := by
  rcases inUse with ⟨other, _, equal, live⟩
  rw [heapPage_inj] at equal
  rwa [equal]

/-- Where the tables follow each other, only the new pages are written. -/
theorem creationMemory_kept (free : FourFree machine.heapAllocTable)
    (behind :
      ¬Live machine.heapAllocTable (nextPage machine.heapAllocTable + 1))
    (outside : ¬InNewPages machine.heapAllocTable address) :
    creationMemory machine file address = machine.mem address := by
  have follows := table_eq free behind
  have apart {new : Nat}
      (member : new ∈ (nextTaskPages machine.heapAllocTable).all) :
      address < new ∨ new + 0x1000 ≤ address := by
    by_contra inside
    apply outside
    refine ⟨new, member, ?_⟩
    rw [pageSize]
    omega
  have directory := apart (nextTaskPages machine.heapAllocTable).directory_mem
  have table := apart (nextTaskPages machine.heapAllocTable).table_mem
  have task := apart (nextTaskPages machine.heapAllocTable).task_mem
  rw [pageSize] at follows
  rw [creationMemory_eq free]
  exact initTaskMemory_agreeOn machine.mem file machine.taskIdCounter address 1
    (by omega) (by omega) (by omega) address le_rfl (Nat.lt_succ_self _)

/-- The word behind the page directory is cleared. -/
theorem creationMemory_overrun (free : FourFree machine.heapAllocTable)
    (live :
      Live machine.heapAllocTable (nextPage machine.heapAllocTable + 1)) :
    (creationMemory machine file).load32
        (heapPage (nextPage machine.heapAllocTable + 1)) = 0#32 := by
  have apart {new : Nat}
      (member : new ∈ (nextTaskPages machine.heapAllocTable).all) :=
    apart_nextTaskPages free (behind_lt free).1 live member
  have table := apart (nextTaskPages machine.heapAllocTable).table_mem
  have task := apart (nextTaskPages machine.heapAllocTable).task_mem
  have kept :
      AgreeOn
        (initTaskMemory machine.mem (nextTaskPages machine.heapAllocTable)
          file machine.taskIdCounter)
        (initPageDirectory machine.mem
          (nextTaskPages machine.heapAllocTable).directory
          (nextTaskPages machine.heapAllocTable).table)
        (heapPage (nextPage machine.heapAllocTable + 1)) 4 :=
    initTaskMemory_agreeOn_initPageDirectory machine.mem file _ _ 4
      (by omega) (by omega)
  rw [creationMemory_eq free, kept.load32, ← directory_overrun,
    initPageDirectory_overrun]

/-- Of another page in use, the first word is kept. -/
theorem creationMemory_first_word (free : FourFree machine.heapAllocTable)
    (inUse : InUse machine.heapAllocTable page)
    (notBehind : page ≠ heapPage (nextPage machine.heapAllocTable + 1)) :
    AgreeOn (creationMemory machine file) machine.mem page 4 := by
  have aligned := inUse.heap.aligned
  have overrun := directory_overrun machine.heapAllocTable
  rcases inUse with ⟨index, small, rfl, live⟩
  have apart {new : Nat}
      (member : new ∈ (nextTaskPages machine.heapAllocTable).all) :=
    apart_nextTaskPages free small live member
  have directory := apart (nextTaskPages machine.heapAllocTable).directory_mem
  have table := apart (nextTaskPages machine.heapAllocTable).table_mem
  have task := apart (nextTaskPages machine.heapAllocTable).task_mem
  have directoryAligned :=
    (nextTaskPages_distinct free).heapDirectory.aligned
  rw [creationMemory_eq free]
  exact initTaskMemory_agreeOn machine.mem file machine.taskIdCounter _ 4
    (by omega) (by omega) (by omega)

/-- What the insertion takes for the last task. -/
theorem prev_creationMemory_head (free : FourFree machine.heapAllocTable)
    (head : InUse machine.heapAllocTable machine.runQueue.head) :
    prev (creationMemory machine file) machine.runQueue.head =
      if machine.runQueue.head =
          heapPage (nextPage machine.heapAllocTable + 1) then
        0
      else
        prev machine.mem machine.runQueue.head := by
  split
  · rename_i isHead
    have live := (isHead ▸ head).live
    rw [isHead, prev, loadPtr, creationMemory_overrun free live]
    rfl
  · rename_i notHead
    exact (creationMemory_first_word free head notHead).loadPtr

end Memory

/-! ## The memory after the insertion -/

section Insertion

variable {machine : Machine} {file : File} {address : Nat} {value : Byte}

theorem newTask_heap (free : FourFree machine.heapAllocTable) :
    IsHeapPage (nextTaskPages machine.heapAllocTable).task :=
  (nextTaskPages_distinct free).heapTask

/-- A page in use is not the new task structure. -/
theorem InUse.ne_task (free : FourFree machine.heapAllocTable) {page : Nat}
    (inUse : InUse machine.heapAllocTable page) :
    page ≠ (nextTaskPages machine.heapAllocTable).task := by
  rintro rfl
  apply inUse.not_inNewPages free ⟨le_rfl, by rw [pageSize]; omega⟩
  exact ⟨_, TaskPages.task_mem _, le_rfl, by rw [pageSize]; omega⟩

/-- The insertion into a queue with a head, after the tables are built. -/
theorem taskInit_mem_of_head (free : FourFree machine.heapAllocTable)
    (nonNull : machine.runQueue.head ≠ 0)
    (head : InUse machine.heapAllocTable machine.runQueue.head) :
    (taskInit machine file).mem =
      linkLast (creationMemory machine file) machine.runQueue.head
        (prev (creationMemory machine file) machine.runQueue.head)
        (nextTaskPages machine.heapAllocTable).task := by
  rw [(taskInit_queueEnq machine file).1, newTask_pages free,
    queueEnq_of_head nonNull head.heap (newTask_heap free)
      (head.ne_task free)]

/-- The insertion into an empty queue. -/
theorem taskInit_mem_of_null (free : FourFree machine.heapAllocTable)
    (null : machine.runQueue.head = 0) :
    (taskInit machine file).mem =
      setNext
        (setPrev (creationMemory machine file)
          (nextTaskPages machine.heapAllocTable).task
          (nextTaskPages machine.heapAllocTable).task)
        (nextTaskPages machine.heapAllocTable).task
        (nextTaskPages machine.heapAllocTable).task := by
  rw [(taskInit_queueEnq machine file).1, newTask_pages free,
    queueEnq_of_null null]

/-- Outside the links, the insertion leaves the memory alone. -/
theorem taskInit_frame (free : FourFree machine.heapAllocTable)
    (head : machine.runQueue.head ≠ 0 →
      InUse machine.heapAllocTable machine.runQueue.head)
    (notTask : address < (nextTaskPages machine.heapAllocTable).task ∨
      (nextTaskPages machine.heapAllocTable).task + 8 ≤ address)
    (notLinks : machine.runQueue.head ≠ 0 →
      (address < machine.runQueue.head ∨
          machine.runQueue.head + 4 ≤ address) ∧
        (address < prev (creationMemory machine file)
            machine.runQueue.head + 4 ∨
          prev (creationMemory machine file) machine.runQueue.head + 8 ≤
            address)) :
    (taskInit machine file).mem address =
      creationMemory machine file address := by
  by_cases null : machine.runQueue.head = 0
  · rw [taskInit_mem_of_null free null]
    have own : (nextTaskPages machine.heapAllocTable).task ∈
        [(nextTaskPages machine.heapAllocTable).task] :=
      List.mem_singleton_self _
    apply (LinksOnly.setPrev own).trans (LinksOnly.setNext own)
    intro task member
    rw [List.mem_singleton.mp member]
    exact notTask
  · rw [taskInit_mem_of_head free null (head null)]
    exact linkLast_frame notTask (notLinks null).1 (notLinks null).2

/-! ## Another byte at an address -/

@[simp]
theorem withByte_heapAllocTable :
    (withByte machine address value).heapAllocTable =
      machine.heapAllocTable :=
  rfl

@[simp]
theorem withByte_runQueue :
    (withByte machine address value).runQueue = machine.runQueue :=
  rfl

theorem withByte_mem_self :
    (withByte machine address value).mem address = value :=
  store8_self _ _ _

/-- The byte is not in the backward link of the head. -/
theorem prev_withByte
    (outside : address < machine.runQueue.head ∨
      machine.runQueue.head + 4 ≤ address) :
    prev (withByte machine address value).mem machine.runQueue.head =
      prev machine.mem machine.runQueue.head :=
  ((store8_agreeOutside machine.mem address value).agreeOn _ 4
    (by omega)).loadPtr

theorem prev_withByte_of_not_link (value : Byte)
    (notLink : ¬RunQueueLink machine address)
    (nonNull : machine.runQueue.head ≠ 0) :
    prev (withByte machine address value).mem machine.runQueue.head =
      prev machine.mem machine.runQueue.head := by
  apply prev_withByte
  by_contra inside
  exact notLink ⟨nonNull, .inl (by omega)⟩

theorem runQueueLink_withByte (notLink : ¬RunQueueLink machine address) :
    ¬RunQueueLink (withByte machine address value) address := by
  intro link
  rw [RunQueueLink, withByte_runQueue] at link
  have same := prev_withByte_of_not_link value notLink link.1
  rw [same] at link
  exact notLink link

theorem LinksInUse.withByte (links : LinksInUse machine)
    (notLink : ¬RunQueueLink machine address) :
    LinksInUse (withByte machine address value) := by
  constructor
  · exact links.head
  · rw [withByte_runQueue, withByte_heapAllocTable]
    intro nonNull
    rw [prev_withByte_of_not_link value notLink nonNull]
    exact links.last nonNull

end Insertion

/-! ## Which creations are confined -/

section Confined

variable {machine : Machine} {file : File} {address : Nat} {value : Byte}

/-- A page behind a page directory is kept when it is not a new one. -/
theorem taskInit_kept (free : FourFree machine.heapAllocTable)
    (links : LinksInUse machine)
    (behind :
      ¬Live machine.heapAllocTable (nextPage machine.heapAllocTable + 1))
    (linked : machine.runQueue.head ≠ 0 →
      prev machine.mem machine.runQueue.head ≠ 0)
    (outside : ¬InNewPages machine.heapAllocTable address)
    (notLink : ¬RunQueueLink machine address) :
    (taskInit machine file).mem address = machine.mem address := by
  rw [← creationMemory_kept free behind outside]
  apply taskInit_frame free links.head
  · by_contra inside
    apply outside
    refine ⟨(nextTaskPages machine.heapAllocTable).task, ?_, ?_⟩
    · exact TaskPages.task_mem _
    · rw [pageSize]
      omega
  · intro nonNull
    have kept : AgreeOn (creationMemory machine file) machine.mem
        machine.runQueue.head 4 := by
      intro other lower upper
      apply creationMemory_kept free behind
      exact (links.head nonNull).not_inNewPages free
        ⟨lower, by rw [pageSize]; omega⟩
    have same : prev (creationMemory machine file) machine.runQueue.head =
        prev machine.mem machine.runQueue.head :=
      kept.loadPtr
    rw [same]
    constructor
    · by_contra inside
      exact notLink ⟨nonNull, .inl (by omega)⟩
    · by_contra inside
      exact notLink ⟨nonNull, .inr ⟨linked nonNull, by omega⟩⟩

/-- The low byte of the pointer to a page is zero. -/
theorem storePtr_heapPage {mem : Memory} {page : Nat}
    (heap : IsHeapPage page) : mem.storePtr address page address = 0#8 := by
  have aligned := heap.aligned
  rw [load8_eq_setWidth (mem.storePtr address page) address, storePtr,
    load32_store32_self]
  apply BitVec.eq_of_toNat_eq
  rw [BitVec.toNat_setWidth, BitVec.toNat_ofNat]
  change _ = 0
  omega

/-- Through a null link, the insertion stores to the null page. -/
theorem stores_null (free : FourFree machine.heapAllocTable)
    (nonNull : machine.runQueue.head ≠ 0)
    (head : InUse machine.heapAllocTable machine.runQueue.head)
    (null : ∀ value,
      prev (creationMemory (withByte machine 4 value) file)
        machine.runQueue.head = 0) :
    Stores machine file 4 := by
  have lower := head.heap.lower
  have inserted :=
    @taskInit_mem_of_head (withByte machine 4 1#8) file free nonNull head
  rw [withByte_runQueue, null, withByte_heapAllocTable] at inserted
  refine ⟨1#8, ?_⟩
  rw [inserted, linkLast, setPrev,
    storePtr_agreeOutside _ machine.runQueue.head _ 4 (.inl (by omega)),
    setNext, storePtr_heapPage (newTask_heap free)]
  decide

/-- The null page is no place to store to. -/
theorem null_outside (free : FourFree machine.heapAllocTable)
    (links : LinksInUse machine) :
    ¬InNewPages machine.heapAllocTable 4 ∧ ¬RunQueueLink machine 4 := by
  constructor
  · rintro ⟨page, member, lower, -⟩
    have heap := ((nextTaskPages_distinct free).heap page member).lower
    omega
  · rintro ⟨nonNull, ⟨lower, -⟩ | ⟨lastNonNull, lower, -⟩⟩
    · have heap := (links.head nonNull).heap.lower
      omega
    · have heap := (links.last nonNull lastNonNull).heap.lower
      omega

theorem not_confined_of_null (free : FourFree machine.heapAllocTable)
    (links : LinksInUse machine) (nonNull : machine.runQueue.head ≠ 0)
    (null : ∀ value,
      prev (creationMemory (withByte machine 4 value) file)
        machine.runQueue.head = 0) :
    ¬Confined machine file := by
  intro confined
  rcases null_outside free links with ⟨notNew, notLink⟩
  rcases confined.memory 4
    (stores_null free nonNull (links.head nonNull) null) with new | link
  · exact notNew new
  · exact notLink link

/-- The insertion finds the last task of the queue, or a null link. -/
theorem last_cases (file : File) (value : Byte)
    (free : FourFree machine.heapAllocTable)
    (links : LinksInUse machine) (nonNull : machine.runQueue.head ≠ 0)
    (outside : address < machine.runQueue.head ∨
      machine.runQueue.head + 4 ≤ address) :
    prev (creationMemory (withByte machine address value) file)
        machine.runQueue.head = 0 ∨
      (prev machine.mem machine.runQueue.head ≠ 0 ∧
        prev (creationMemory (withByte machine address value) file)
            machine.runQueue.head =
          prev machine.mem machine.runQueue.head) := by
  have last := @prev_creationMemory_head (withByte machine address value) file
    free (links.head nonNull)
  rw [withByte_runQueue, prev_withByte outside] at last
  split at last
  · exact .inl last
  · by_cases null : prev machine.mem machine.runQueue.head = 0
    · exact .inl (last.trans null)
    · exact .inr ⟨null, last⟩

/-- The first byte of a page in use is no link to a last task. -/
theorem first_byte_outside {page : Nat}
    (inUse : InUse machine.heapAllocTable page) {other : Nat}
    (otherInUse : other = 0 ∨
      InUse machine.heapAllocTable other) :
    page < other + 4 ∨ other + 8 ≤ page := by
  have lower := inUse.heap.lower
  rcases otherInUse with rfl | otherInUse
  · omega
  · by_cases same : other = page
    · omega
    · have apart := otherInUse.heap.apart inUse.heap same
      omega

/-- The word behind the page directory is stored to in a page in use. -/
theorem stores_behind (free : FourFree machine.heapAllocTable)
    (links : LinksInUse machine) {page : Nat}
    (inUse : InUse machine.heapAllocTable page)
    (behind : page = heapPage (nextPage machine.heapAllocTable + 1))
    (notHead : machine.runQueue.head ≠ page) :
    Stores machine file page := by
  have lower := inUse.heap.lower
  have task := (newTask_heap free).apart inUse.heap (inUse.ne_task free).symm
  have live := (behind ▸ inUse).live
  have cleared :
      (creationMemory (withByte machine page 1#8) file).load32 page = 0#32 := by
    rw [behind]
    exact @creationMemory_overrun (withByte machine _ 1#8) file free live
  refine ⟨1#8, ?_⟩
  rw [@taskInit_frame (withByte machine page 1#8) file page free links.head,
    load8_eq_setWidth (creationMemory (withByte machine page 1#8) file) page,
    cleared]
  · decide
  · rw [withByte_heapAllocTable]
    omega
  · rw [withByte_runQueue]
    intro nonNull
    have head :=
      (links.head nonNull).heap.apart inUse.heap notHead
    refine ⟨by omega, first_byte_outside inUse ?_⟩
    have outside : page < machine.runQueue.head ∨
        machine.runQueue.head + 4 ≤ page := by omega
    rcases last_cases file 1#8 free links nonNull outside with
      null | ⟨last, same⟩
    · exact .inl null
    · rw [same]
      exact .inr (links.last nonNull last)

theorem Confined.behind (free : FourFree machine.heapAllocTable)
    (links : LinksInUse machine) (confined : Confined machine file) :
    ¬Live machine.heapAllocTable (nextPage machine.heapAllocTable + 1) := by
  intro live
  have inUse : InUse machine.heapAllocTable
      (heapPage (nextPage machine.heapAllocTable + 1)) :=
    ⟨_, (behind_lt free).1, rfl, live⟩
  by_cases isHead : machine.runQueue.head =
      heapPage (nextPage machine.heapAllocTable + 1)
  · apply not_confined_of_null free links _ _ confined
    · rw [isHead]
      exact inUse.heap.ne_null
    · intro value
      have last := @prev_creationMemory_head (withByte machine 4 value) file
        free (isHead ▸ inUse)
      rw [withByte_runQueue, withByte_heapAllocTable, if_pos isHead] at last
      exact last
  · have notNew := inUse.not_inNewPages free
      ⟨le_rfl, by rw [pageSize]; omega⟩
    rcases confined.memory _ (stores_behind free links inUse rfl isHead)
      with new | ⟨nonNull, inHead | ⟨last, inLast⟩⟩
    · exact notNew new
    · have head := (links.head nonNull).heap.apart inUse.heap isHead
      omega
    · have outside :=
        first_byte_outside inUse (.inr (links.last nonNull last))
      omega

/-- A null link is followed by the insertion. -/
theorem Confined.linked (free : FourFree machine.heapAllocTable)
    (links : LinksInUse machine) (confined : Confined machine file)
    (nonNull : machine.runQueue.head ≠ 0) :
    prev machine.mem machine.runQueue.head ≠ 0 := by
  intro null
  apply not_confined_of_null free links nonNull _ confined
  intro value
  have lower := (links.head nonNull).heap.lower
  have outside : 4 < machine.runQueue.head ∨
      machine.runQueue.head + 4 ≤ 4 := by omega
  rcases last_cases file value free links nonNull outside with
    cleared | ⟨last, -⟩
  · exact cleared
  · exact absurd null last

@[simp]
theorem withEntry_taskIdCounter (index : Nat) (entry : SegmentDescriptor) :
    (withEntry machine index entry).taskIdCounter = machine.taskIdCounter :=
  rfl

/-- Only the entry at the index of the new task is stored to. -/
theorem storesEntry_iff {index : Nat} :
    StoresEntry machine file index ↔
      index = tssIndex machine.taskIdCounter := by
  constructor
  · rintro ⟨entry, changed⟩
    by_contra different
    apply changed
    rw [(taskInit_table _ file).1, withEntry_taskIdCounter, initGdt,
      Function.update_of_ne different]
    exact Function.update_self index entry machine.gdt
  · rintro rfl
    refine ⟨0#64, ?_⟩
    rw [(taskInit_table _ file).1, withEntry_taskIdCounter, initGdt,
      Function.update_self]
    intro equal
    have limit := congrArg SegmentDescriptor.limit0 equal
    rw [limit0_install] at limit
    revert limit
    decide

theorem Confined.inTable (confined : Confined machine file) :
    tssIndex machine.taskIdCounter < gdtSize := by
  rcases confined.gdt with ⟨index, small, only⟩
  rw [only _ (storesEntry_iff.mpr rfl)]
  exact small

/-- A creation stores to no other address of the memory. -/
theorem Stores.inside (free : FourFree machine.heapAllocTable)
    (links : LinksInUse machine)
    (behind :
      ¬Live machine.heapAllocTable (nextPage machine.heapAllocTable + 1))
    (linked : machine.runQueue.head ≠ 0 →
      prev machine.mem machine.runQueue.head ≠ 0)
    (stores : Stores machine file address) :
    InNewPages machine.heapAllocTable address ∨
      RunQueueLink machine address := by
  by_contra neither
  rw [not_or] at neither
  rcases neither with ⟨notNew, notLink⟩
  rcases stores with ⟨value, changed⟩
  apply changed
  rw [@taskInit_kept (withByte machine address value) file address free
    (links.withByte notLink) behind _ notNew (runQueueLink_withByte notLink)]
  · exact withByte_mem_self
  · rw [withByte_runQueue]
    intro nonNull
    rw [prev_withByte_of_not_link value notLink nonNull]
    exact linked nonNull

/-- The entries of other pages in the heap table are kept. -/
theorem heapAllocTable_kept (free : FourFree machine.heapAllocTable)
    {page : Nat}
    (other : heapPage page ∉ (nextTaskPages machine.heapAllocTable).all) :
    (taskInit machine file).heapAllocTable page =
      machine.heapAllocTable page := by
  simp only [TaskPages.all, nextTaskPages, List.mem_cons, List.not_mem_nil,
    or_false, heapPage_inj, not_or] at other
  rcases other with ⟨first, second, third, fourth⟩
  rw [heapAllocTable_taskInit free, takeTaskPages, takePage,
    Function.update_of_ne fourth, takePage, Function.update_of_ne third,
    takePage, Function.update_of_ne second, takePage,
    Function.update_of_ne first]

/-- The variables that a creation does not use. -/
theorem taskInit_rest (machine : Machine) (file : File) :
    { taskInit machine file with
        mem := machine.mem
        heapAllocTable := machine.heapAllocTable
        gdt := machine.gdt
        taskIdCounter := machine.taskIdCounter
        runQueue := machine.runQueue } = machine := by
  rcases allocated : allocatePages machine.heapAllocTable with ⟨pages, heap⟩
  rw [taskInit, allocated]
  rfl

/--
With four free pages, a creation stores only into its pages, one entry of the
descriptor table, the task counter and the run queue, exactly when the page
behind its page directory is free, the entry is in the table, and the backward
link of the head of the run queue is not null.
-/
theorem confined_iff (file : File) (free : FourFree machine.heapAllocTable)
    (links : LinksInUse machine) :
    Confined machine file ↔
      ¬Live machine.heapAllocTable (nextPage machine.heapAllocTable + 1) ∧
        tssIndex machine.taskIdCounter < gdtSize ∧
        (machine.runQueue.head ≠ 0 →
          prev machine.mem machine.runQueue.head ≠ 0) := by
  constructor
  · intro confined
    exact ⟨confined.behind free links, confined.inTable,
      confined.linked free links⟩
  · rintro ⟨behind, inTable, linked⟩
    constructor
    · intro address stores
      exact stores.inside free links behind linked
    · intro address
      exact taskInit_kept free links behind linked
    · exact ⟨_, inTable, fun other => storesEntry_iff.mp⟩
    · intro page
      exact heapAllocTable_kept free
    · exact taskInit_rest machine file

/-- The first creation after boot. -/
theorem booted_confined : Confined booted fshell := by
  have links : LinksInUse booted :=
    linksInUse_of_heapRun
      (.boot : HeapRun Layout.sample (fun _ => 0#8) FourFree booted [])
      (by simp [Held])
  apply (confined_iff fshell booted_fourFree links).mpr
  refine ⟨?_, by decide, ?_⟩
  · have next : nextPage booted.heapAllocTable = 0 :=
      booted_heapPrefix.nextPage_eq (by decide)
    rw [next, booted_heapPrefix 1 (by decide)]
    decide
  · intro nonNull
    exact absurd rfl nonNull

/-- Two allocations, the first of which has been freed. -/
def fragmentedTable : HeapTable :=
  memFree (memAlloc (memAlloc booted.heapAllocTable).2).2 (heapPage 0)

def fragmented : Machine :=
  { booted with heapAllocTable := fragmentedTable }

theorem fragmentedTable_live_iff {page : Nat} (inHeap : page < maxHeapPages) :
    Live fragmentedTable page ↔ page = 1 := by
  have first := booted_heapPrefix.takePage (by decide)
  have second := first.takePage (by decide)
  have firstFree : 0 < (freePages booted.heapAllocTable).card := by
    rw [booted_heapPrefix.card]
    decide
  have secondFree : 0 < (freePages (takePage booted.heapAllocTable)).card := by
    rw [first.card]
    decide
  have index : pageIndex (heapPage 0) = 0 := by decide
  rw [fragmentedTable, memAlloc_of_free firstFree, memAlloc_of_free secondFree,
    memFree, index, Live]
  by_cases zero : page = 0
  · rw [zero, Function.update_self]
    decide
  · rw [Function.update_of_ne zero]
    have live := second page inHeap
    rw [Live] at live
    rw [live]
    omega

theorem fragmented_fourFree : FourFree fragmented.heapAllocTable := by
  have pages : Finset.Ico 2 6 ⊆ freePages fragmentedTable := by
    intro page member
    rw [Finset.mem_Ico] at member
    have inHeap : page < maxHeapPages := by
      rw [maxHeapPages]
      omega
    rw [mem_freePages, fragmentedTable_live_iff inHeap]
    exact ⟨inHeap, by omega⟩
  have card := Finset.card_le_card pages
  rw [Nat.card_Ico] at card
  exact card

/-- The clearing loop of the page directory reaches the page in use. -/
theorem fragmented_not_confined : ¬Confined fragmented fshell := by
  intro confined
  have links : LinksInUse fragmented :=
    ⟨fun nonNull => absurd rfl nonNull, fun nonNull => absurd rfl nonNull⟩
  have behind := confined.behind fragmented_fourFree links
  have notFirst : ¬Live fragmentedTable 0 := by
    rw [fragmentedTable_live_iff (by decide)]
    decide
  have next : nextPage fragmentedTable = 0 :=
    Nat.le_zero.mp (nextPage_le notFirst)
  change ¬Live fragmentedTable (nextPage fragmentedTable + 1) at behind
  rw [next, fragmentedTable_live_iff (by decide)] at behind
  exact behind rfl

end Confined

end MagicalOs.Kernel.CreationStores
