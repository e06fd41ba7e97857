import MagicalOs.Kernel.HeapRuns

/-!
# The mapping of the heap

The kernel page table has an entry for every heap page below 4 MiB, and the
page directories have no entry for the addresses above.  So the pages from
number 768 on, which `mem_alloc` returns as well, are mapped by no page
directory.  A task loses the kernel page table altogether when a later task is
given the page right below its page directory.
-/

namespace MagicalOs.Kernel.HeapMapping

open MagicalOs.Library.ByteMemory
open MagicalOs.Library.ByteMemory.Memory
open MagicalOs.Kernel.HeapPages
open MagicalOs.Kernel.MachineState
open MagicalOs.Kernel.PageTables
open MagicalOs.Kernel.PageTables.PageEntry
open MagicalOs.Kernel.TaskCreation
open MagicalOs.Kernel.KernelRuns
open MagicalOs.Kernel.HeapRuns

/-- The address of the kernel page directory. -/
def kernelDirectory : Nat := 0x8f000

/-- The number of heap pages below 4 MiB. -/
def mappedPages : Nat := 768

/-! ## Walks over one page directory -/

section Walk

variable {mem : Memory} {directory address index : Nat}

/-- An absent directory entry maps nothing. -/
theorem walk_of_absent
    (absent : mem.load32 (directory + 4 * (address / 4194304)) = 0#32) :
    walk mem directory address = none := by
  have notPresent : p 0#32 = 0#1 := by decide
  simp [walk, absent, notPresent]

/-- Below 4 MiB, an entry of the kernel page table maps its own page. -/
theorem walk_of_kernel (kernel : KernelTables mem)
    (entry : mem.load32 directory = kernelDirectoryEntry)
    (lower : 0x100000 ≤ address) (upper : address < 0x400000) :
    ∃ mapping, walk mem directory address = some mapping ∧
      mapping.physical = address ∧ mapping.writable = true := by
  rcases kernelDirectoryEntry_fields with ⟨present, writable, _, base⟩
  rcases kernelPageEntry_fields (BitVec.ofNat 20 (address / 4096)) with
    ⟨pagePresent, pageWritable, pageBase⟩
  have first : address / 4194304 = 0 := by omega
  have number : address / 4096 % 1024 = address / 4096 := by omega
  have table : frame 0x00090#20 = 0x90000 := by decide
  have page := kernel.heap (address / 4096) (by omega) (by omega)
  have directoryWord :
      mem.load32 (directory + 4 * (address / 4194304)) =
        kernelDirectoryEntry := by
    rw [first]
    exact entry
  have found :
      walk mem directory address =
        some
          { physical :=
              frame (BitVec.ofNat 20 (address / 4096)) + address % 4096
            writable := true
            user :=
              uS kernelDirectoryEntry = 1#1 ∧
                uS (kernelPageEntry
                  (BitVec.ofNat 20 (address / 4096))) = 1#1 } := by
    simp [walk, directoryWord, present, base, table, number, page,
      pagePresent, pageBase, writable, pageWritable]
  refine ⟨_, found, ?_, rfl⟩
  have small : address / 4096 < 2 ^ 20 := by omega
  rw [frame, BitVec.toNat_ofNat, Nat.mod_eq_of_lt small]
  change address / 4096 * 4096 + address % 4096 = address
  omega

/-- The first entry decides about the heap pages below 4 MiB. -/
theorem mapsToItself_of_kernel (kernel : KernelTables mem)
    (entry : mem.load32 directory = kernelDirectoryEntry)
    (mapped : index < mappedPages) :
    MapsToItself mem directory (heapPage index) := by
  intro address lower upper
  rw [heapPage_eq] at lower upper
  rw [mappedPages] at mapped
  exact walk_of_kernel kernel entry (by omega) (by omega)

theorem not_mapsToItself_of_absent
    (absent :
      mem.load32 (directory + 4 * (heapPage index / 4194304)) = 0#32) :
    ¬MapsToItself mem directory (heapPage index) := by
  intro maps
  rcases maps (heapPage index) (Nat.le_refl _) (by omega) with
    ⟨mapping, found, _⟩
  rw [walk_of_absent absent] at found
  cases found

/-- The kernel page directory maps exactly the pages below 4 MiB. -/
theorem mapsToItself_kernelDirectory (kernel : KernelTables mem)
    (inHeap : index < maxHeapPages) :
    MapsToItself mem kernelDirectory (heapPage index) ↔
      index < mappedPages := by
  constructor
  · intro maps
    by_contra unmapped
    refine not_mapsToItself_of_absent ?_ maps
    rw [mappedPages] at unmapped
    rw [maxHeapPages] at inHeap
    rw [heapPage_eq]
    exact kernel.unused _ (by omega) (by omega)
  · exact mapsToItself_of_kernel kernel kernel.directory

/-- So does a page directory whose first entry is intact. -/
theorem mapsToItself_taskDirectory (kernel : KernelTables mem)
    (entry : mem.load32 directory = 0#32 ∨
      mem.load32 directory = kernelDirectoryEntry)
    (mapped : index < mappedPages) :
    MapsToItself mem directory (heapPage index) ↔
      mem.load32 directory = kernelDirectoryEntry := by
  constructor
  · intro maps
    rcases entry with absent | present
    · refine absurd maps (not_mapsToItself_of_absent ?_)
      rw [mappedPages] at mapped
      have first : heapPage index / 4194304 = 0 := by
        rw [heapPage_eq]
        omega
      rw [first]
      exact absent
    · exact present
  · intro present
    exact mapsToItself_of_kernel kernel present mapped

end Walk

/-! ## Runs -/

section Runs

variable {layout : Layout} {mem : Memory} {Allowed : HeapTable → Prop}
  {machine : Machine} {tasks : List TaskRecord} {table : HeapTable}

/-- A page which was returned is the next page of the table. -/
theorem nextPage_lt_of_granted (granted : (memAlloc table).1 ≠ 0) :
    nextPage table < maxHeapPages ∧
      (memAlloc table).1 = heapPage (nextPage table) := by
  rcases Nat.lt_or_ge (nextPage table) maxHeapPages with found | exhausted
  · exact ⟨found, by rw [memAlloc_of_lt found]⟩
  · exact absurd (by rw [memAlloc_of_ge exhausted]) granted

/-- The next page is below 4 MiB while one of those pages is free. -/
theorem nextPage_lt_mappedPages_iff (found : nextPage table < maxHeapPages) :
    nextPage table < mappedPages ↔
      ∃ index < mappedPages, ¬Live table index := by
  constructor
  · intro below
    exact ⟨nextPage table, below, not_live_nextPage found⟩
  · rintro ⟨index, below, free⟩
    exact Nat.lt_of_le_of_lt (nextPage_le free) below

/-- The page is mapped to itself by the kernel and by every task. -/
def MappedEverywhere (machine : Machine) (tasks : List TaskRecord)
    (page : Nat) : Prop :=
  MapsToItself machine.mem kernelDirectory page ∧
    ∀ task ∈ tasks, task.pages.directory ≠ 0 →
      MapsToItself machine.mem task.pages.directory page

/--
A page which `mem_alloc` returned is mapped to itself everywhere exactly when
a page below 4 MiB was free at the call, and no page directory of a later task
has ended right below that of an earlier task.
-/
theorem mappedEverywhere_iff
    (run : HeapRun layout mem Allowed machine tasks)
    (granted : (memAlloc table).1 ≠ 0) :
    MappedEverywhere machine tasks (memAlloc table).1 ↔
      (∃ index < mappedPages, ¬Live table index) ∧
        tasks.Pairwise Clear := by
  have kept := run.invariant.tables
  rcases nextPage_lt_of_granted granted with ⟨found, page⟩
  rw [page, MappedEverywhere, mapsToItself_kernelDirectory kept.kernel found,
    ← nextPage_lt_mappedPages_iff found, ← kept.intact]
  refine and_congr_right fun mapped => ?_
  constructor
  · intro maps task taskMem nonNull
    exact (mapsToItself_taskDirectory kept.kernel
      (kept.directory task taskMem nonNull) mapped).mp
        (maps task taskMem nonNull)
  · intro intact task taskMem nonNull
    exact mapsToItself_of_kernel kept.kernel (intact task taskMem nonNull)
      mapped

end Runs

/-! ## The page above the last mapped one -/

/-- The machine after a call of `mem_alloc`. -/
def allocate (machine : Machine) : Machine :=
  { machine with heapAllocTable := (memAlloc machine.heapAllocTable).2 }

/-- The machine after `count` allocations. -/
def allocated (count : Nat) : Machine :=
  allocate^[count] (boot Layout.sample fun _ => 0#8)

theorem allocated_run (count : Nat) :
    HeapRun Layout.sample (fun _ => 0#8) (fun _ => True) (allocated count)
      [] := by
  induction count with
  | zero => exact .boot
  | succ count induction =>
      rw [allocated, Function.iterate_succ_apply']
      exact induction.memAlloc

/-- Allocations alone take the pages in order. -/
theorem allocated_heapPrefix (count : Nat) (room : count ≤ maxHeapPages) :
    Prefix (allocated count).heapAllocTable count := by
  induction count with
  | zero =>
      intro page _
      simp [Live, allocated, boot, kernTaskInit, staticMachine]
  | succ count induction =>
      have before := induction (by omega)
      have next := before.nextPage_eq (by omega)
      rw [allocated, Function.iterate_succ_apply']
      have taken := before.takePage (by omega)
      change Prefix (memAlloc (allocated count).heapAllocTable).2 (count + 1)
      rw [memAlloc_of_lt (by omega)]
      exact taken

/-- The first page is mapped after its allocation. -/
theorem firstPage_mappedEverywhere :
    (memAlloc (allocated 0).heapAllocTable).1 ≠ 0 ∧
      MappedEverywhere (allocated 1) []
        (memAlloc (allocated 0).heapAllocTable).1 := by
  have empty := allocated_heapPrefix 0 (by decide)
  have next := empty.nextPage_eq (by decide)
  have granted : (memAlloc (allocated 0).heapAllocTable).1 ≠ 0 := by
    rw [memAlloc_of_lt (by rw [next]; decide), next, heapPage_eq]
    decide
  have free : ¬Live (allocated 0).heapAllocTable 0 := fun live =>
    absurd ((empty 0 (by decide)).mp live) (by decide)
  exact
    ⟨granted, (mappedEverywhere_iff (allocated_run 1) granted).mpr
      ⟨⟨0, by decide, free⟩, .nil⟩⟩

/-- The page at 4 MiB is returned after 768 others, and not mapped. -/
theorem firstUnmapped_not_mappedEverywhere :
    HeapRun Layout.sample (fun _ => 0#8) (fun _ => True) (allocated 769) [] ∧
      (memAlloc (allocated 768).heapAllocTable).1 = 0x400000 ∧
      ¬MappedEverywhere (allocated 769) [] 0x400000 := by
  have full := allocated_heapPrefix 768 (by decide)
  have next := full.nextPage_eq (by decide)
  have page : (memAlloc (allocated 768).heapAllocTable).1 = 0x400000 := by
    rw [memAlloc_of_lt (by rw [next]; decide), next, heapPage_eq]
  refine ⟨allocated_run 769, page, ?_⟩
  have kernel := (allocated_run 769).invariant.tables.kernel
  rintro ⟨maps, _⟩
  have inHeap : 768 < maxHeapPages := by decide
  have below := (mapsToItself_kernelDirectory kernel inHeap).mp maps
  exact absurd below (by decide)

end MagicalOs.Kernel.HeapMapping
