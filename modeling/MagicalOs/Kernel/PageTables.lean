import MagicalOs.Library.BitField
import MagicalOs.Library.ByteMemory
import Mathlib.Logic.Function.Iterate

/-!
# Page directories and page tables

The entries of both levels share their layout: the present, writable, user and
caching bits, and in the upper twenty bits the number of a page.  `walk` is the
translation which the processor makes with them.  `mem_init` builds the kernel
page directory and its page table by a sequence of loops over one running
pointer; `loopTo` is such a loop, and its specification says which entries it
leaves behind.
-/

namespace MagicalOs.Kernel.PageTables

open MagicalOs.Library.BitField
open MagicalOs.Library.ByteMemory
open MagicalOs.Library.ByteMemory.Memory

/-! ## Entries -/

/-- `struct page_directory_entry` and `struct page_table_entry`. -/
abbrev PageEntry := Word

namespace PageEntry

def p (entry : PageEntry) : BitVec 1 := field entry 0 1
def rW (entry : PageEntry) : BitVec 1 := field entry 1 1
def uS (entry : PageEntry) : BitVec 1 := field entry 2 1

/-- `pt_base` of a directory entry and `page_base` of a table entry. -/
def base (entry : PageEntry) : BitVec 20 := field entry 12 20

def setP (entry : PageEntry) : PageEntry := setField entry 0 1 1#1
def setRW (entry : PageEntry) : PageEntry := setField entry 1 1 1#1
def setUS (entry : PageEntry) : PageEntry := setField entry 2 1 1#1
def setPwt (entry : PageEntry) : PageEntry := setField entry 3 1 1#1
def setPcd (entry : PageEntry) : PageEntry := setField entry 4 1 1#1
def setG (entry : PageEntry) : PageEntry := setField entry 8 1 1#1

def setBase (entry : PageEntry) (base : BitVec 20) : PageEntry :=
  setField entry 12 20 base

end PageEntry

open PageEntry

/-- The entry of the kernel page table in every page directory. -/
def kernelDirectoryEntry : PageEntry :=
  setBase (setRW (setP 0#32)) 0x00090#20

/-- An entry of the kernel page table for a page of ordinary memory. -/
def kernelPageEntry (base : BitVec 20) : PageEntry :=
  setBase (setG (setRW (setP 0#32))) base

/-- An entry of the kernel page table for a page of video memory. -/
def videoPageEntry (base : BitVec 20) : PageEntry :=
  setBase (setG (setPcd (setPwt (setRW (setP 0#32))))) base

/-- An entry which a task may use from user mode. -/
def userEntry (base : BitVec 20) : PageEntry :=
  setBase (setUS (setRW (setP 0#32))) base

@[simp]
theorem kernelDirectoryEntry_fields :
    p kernelDirectoryEntry = 1#1 ∧ rW kernelDirectoryEntry = 1#1 ∧
      uS kernelDirectoryEntry = 0#1 ∧
      base kernelDirectoryEntry = 0x00090#20 := by
  decide

theorem kernelPageEntry_fields (page : BitVec 20) :
    p (kernelPageEntry page) = 1#1 ∧ rW (kernelPageEntry page) = 1#1 ∧
      base (kernelPageEntry page) = page := by
  simp [kernelPageEntry, p, rW, base, setP, setRW, setG, setBase,
    field_setField_of_disjoint]

theorem userEntry_fields (page : BitVec 20) :
    p (userEntry page) = 1#1 ∧ rW (userEntry page) = 1#1 ∧
      uS (userEntry page) = 1#1 ∧ base (userEntry page) = page := by
  simp [userEntry, p, rW, uS, base, setP, setRW, setUS, setBase,
    field_setField_of_disjoint]

/-! ## The page walk -/

/-- What a virtual address is mapped to, and with which rights. -/
structure Mapping where
  physical : Nat
  writable : Bool
  user : Bool
  deriving DecidableEq

/-- The address of the table or page with the number `base`. -/
def frame (base : BitVec 20) : Nat := base.toNat * 4096

/-- The two-level page walk from the page directory at `directory`. -/
def walk (mem : Memory) (directory address : Nat) : Option Mapping :=
  let pde := mem.load32 (directory + 4 * (address / 4194304))
  if p pde = 0#1 then
    none
  else
    let pte := mem.load32 (frame (base pde) + 4 * (address / 4096 % 1024))
    if p pte = 0#1 then
      none
    else
      some
        { physical := frame (base pte) + address % 4096
          writable := rW pde = 1#1 ∧ rW pte = 1#1
          user := uS pde = 1#1 ∧ uS pte = 1#1 }

/-- Every address of the page is mapped to itself, present and writable. -/
def MapsToItself (mem : Memory) (directory page : Nat) : Prop :=
  ∀ address, page ≤ address → address < page + 4096 →
    ∃ mapping, walk mem directory address = some mapping ∧
      mapping.physical = address ∧ mapping.writable = true

/-- The physical pages a task can write from user mode. -/
def UserWritable (mem : Memory) (directory : Nat) : Set Nat :=
  { page | ∃ address < 2 ^ 32, ∃ mapping,
      walk mem directory address = some mapping ∧
        mapping.writable = true ∧ mapping.user = true ∧
        mapping.physical / 4096 = page }

/-! ## Loops over a running entry pointer -/

/-- The loop variables of `mem_init` and of `task_init`. -/
structure EntryCursor where
  mem : Memory
  i : Nat
  entry : Nat
  pagingBaseAddr : BitVec 20

/-- `entry->all = value; entry++`. -/
def put (value : PageEntry) (cursor : EntryCursor) : EntryCursor :=
  { cursor with
    mem := cursor.mem.store32 cursor.entry value
    entry := cursor.entry + 4 }

/-- `entry->all = 0; entry++`. -/
def putZero (cursor : EntryCursor) : EntryCursor :=
  put 0#32 cursor

/-- Map the page `paging_base_addr`, then go on to the next page. -/
def putPage (make : BitVec 20 → PageEntry) (cursor : EntryCursor) :
    EntryCursor :=
  { put (make cursor.pagingBaseAddr) cursor with
    pagingBaseAddr := cursor.pagingBaseAddr + 1#20 }

/-- `for (; i < bound; i++) body`. -/
def loopTo (bound : Nat) (body : EntryCursor → EntryCursor)
    (cursor : EntryCursor) : EntryCursor :=
  (fun cursor => { body cursor with i := cursor.i + 1 })^[bound - cursor.i]
    cursor

/-- The memory which the loops of a table leave behind. -/
def EntryCursor.written (cursor : EntryCursor) : Memory := cursor.mem

/-- The kernel page directory, at `0x0008f000`. -/
def initKernelDirectory (mem : Memory) : EntryCursor :=
  loopTo 0x400 putZero
    { put kernelDirectoryEntry
        { mem := mem, i := 0, entry := 0x0008f000, pagingBaseAddr := 0#20 }
      with i := 1 }

/-- The start of one of the mapped regions of the kernel page table. -/
def startRegion (base : BitVec 20) (cursor : EntryCursor) : EntryCursor :=
  { cursor with pagingBaseAddr := base }

/-- The cursor with which `mem_init` starts on the kernel page table. -/
def tableStart (mem : Memory) : EntryCursor :=
  { mem := mem, i := 0, entry := 0x00090000, pagingBaseAddr := 0#20 }

/-- The loops below the extended heap, up to entry `0x100`. -/
def initLowTable (mem : Memory) : EntryCursor :=
  let cursor := loopTo 0x007 putZero (tableStart mem)
  let cursor :=
    loopTo 0x086 (putPage kernelPageEntry) (startRegion 0x00007#20 cursor)
  let cursor := loopTo 0x095 putZero cursor
  let cursor :=
    loopTo 0x0a0 (putPage kernelPageEntry) (startRegion 0x00095#20 cursor)
  let cursor := loopTo 0x0b8 putZero cursor
  let cursor :=
    loopTo 0x0c0 (putPage videoPageEntry) (startRegion 0x000b8#20 cursor)
  loopTo 0x100 putZero cursor

/-- The loop over the extended heap. -/
def initHeapTable (mem : Memory) : EntryCursor :=
  loopTo 0xeff (putPage kernelPageEntry)
    (startRegion 0x00100#20 (initLowTable mem))

/-- The kernel page table, from `0x00090000` on. -/
def initKernelTable (mem : Memory) : EntryCursor :=
  loopTo 0x40000 putZero (initHeapTable mem)

/-- The stores of `mem_init`. -/
def memInit (mem : Memory) : Memory :=
  (initKernelTable (initKernelDirectory mem).mem).written

/-! ## What a loop writes -/

/-- The running pointer points to entry `i` of the table. -/
def EntryCursor.At (cursor : EntryCursor) (table : Nat) : Prop :=
  cursor.entry = table + 4 * cursor.i

@[simp]
theorem put_i (value : PageEntry) (cursor : EntryCursor) :
    (put value cursor).i = cursor.i := rfl

@[simp]
theorem put_mem (value : PageEntry) (cursor : EntryCursor) :
    (put value cursor).mem = cursor.mem.store32 cursor.entry value := rfl

/-- An entry which is not counted shifts the table by one entry. -/
theorem EntryCursor.At.put {cursor : EntryCursor} {table : Nat}
    (here : cursor.At table) (value : PageEntry) :
    (PageTables.put value cursor).At (table + 4) := by
  rw [EntryCursor.At] at here
  change cursor.entry + 4 = table + 4 + 4 * cursor.i
  omega

/-- A loop body which stores one entry and advances the running page. -/
def storeBody (make : BitVec 20 → PageEntry)
    (advance : BitVec 20 → BitVec 20) (cursor : EntryCursor) : EntryCursor :=
  { put (make cursor.pagingBaseAddr) cursor with
    pagingBaseAddr := advance cursor.pagingBaseAddr }

/-- The effect of `count` iterations, from the cursor `before` on. -/
structure Stored (table : Nat) (make : BitVec 20 → PageEntry)
    (advance : BitVec 20 → BitVec 20) (count : Nat)
    (before after : EntryCursor) : Prop where
  i : after.i = before.i + count
  «at» : after.At table
  frame : AgreeOutside after.mem before.mem
    (table + 4 * before.i) (4 * count)
  entries : ∀ step < count,
    after.mem.load32 (table + 4 * (before.i + step)) =
      make (advance^[step] before.pagingBaseAddr)

section Loops

variable {table : Nat} {make : BitVec 20 → PageEntry}
  {advance : BitVec 20 → BitVec 20} {cursor : EntryCursor}

theorem iterate_stored (count : Nat) (start : cursor.At table) :
    Stored table make advance count cursor
      ((fun cursor =>
        { storeBody make advance cursor with i := cursor.i + 1 })^[count]
        cursor) := by
  induction count generalizing cursor with
  | zero =>
      exact ⟨rfl, start, fun _ _ => rfl, fun step impossible => by omega⟩
  | succ count induction =>
      rw [Function.iterate_succ_apply]
      have here : cursor.entry = table + 4 * cursor.i := start
      have first :
          EntryCursor.At { storeBody make advance cursor with
            i := cursor.i + 1 } table := by
        change cursor.entry + 4 = table + 4 * (cursor.i + 1)
        omega
      have rest := induction first
      have stored :=
        store32_agreeOutside cursor.mem cursor.entry
          (make cursor.pagingBaseAddr)
      refine ⟨?_, rest.at, ?_, ?_⟩
      · rw [rest.i]
        change cursor.i + 1 + count = cursor.i + (count + 1)
        omega
      · refine (rest.frame.mono ?_ ?_).trans (stored.mono ?_ ?_)
        · change table + 4 * cursor.i ≤ table + 4 * (cursor.i + 1)
          omega
        · change table + 4 * (cursor.i + 1) + 4 * count ≤ _
          omega
        · omega
        · omega
      · intro step inLoop
        cases step with
        | zero =>
            have untouched :=
              rest.frame.agreeOn (table + 4 * cursor.i) 4 (by
                change _ ≤ table + 4 * (cursor.i + 1) ∨ _
                omega)
            have written :
                (storeBody make advance cursor).mem.load32
                    (table + 4 * cursor.i) =
                  make cursor.pagingBaseAddr := by
              rw [← here]
              exact load32_store32_self cursor.mem cursor.entry _
            exact untouched.load32.trans written
        | succ step =>
            have entry := rest.entries step (by omega)
            rw [Function.iterate_succ_apply,
              show cursor.i + (step + 1) = cursor.i + 1 + step by omega]
            exact entry

theorem loopTo_stored (bound : Nat) (start : cursor.At table) :
    Stored table make advance (bound - cursor.i) cursor
      (loopTo bound (storeBody make advance) cursor) :=
  iterate_stored (bound - cursor.i) start

end Loops

/-- Entry `i` is reached from `start` by writing the entries in between. -/
structure Reached (table : Nat) (start : EntryCursor) (i : Nat)
    (cursor : EntryCursor) : Prop where
  index : cursor.i = i
  «at» : cursor.At table
  le : start.i ≤ i
  frame : AgreeOutside cursor.mem start.mem
    (table + 4 * start.i) (4 * (i - start.i))

private theorem iterate_add_one (base : BitVec 20) (steps : Nat) :
    (· + 1#20)^[steps] base = base + BitVec.ofNat 20 steps := by
  induction steps with
  | zero => simp
  | succ steps induction =>
      rw [Function.iterate_succ_apply', induction, BitVec.ofNat_add,
        BitVec.add_assoc]

namespace Reached

variable {table i bound : Nat} {start cursor : EntryCursor}

theorem refl (at_start : start.At table) :
    Reached table start start.i start :=
  ⟨rfl, at_start, Nat.le_refl _, fun _ _ => rfl⟩

theorem region (reached : Reached table start i cursor) (base : BitVec 20) :
    Reached table start i (startRegion base cursor) :=
  ⟨reached.index, reached.at, reached.le, reached.frame⟩

/-- A further loop goes on where the last one ended. -/
theorem loop (reached : Reached table start i cursor)
    (make : BitVec 20 → PageEntry) (advance : BitVec 20 → BitVec 20)
    (le : i ≤ bound) :
    Reached table start bound
      (loopTo bound (storeBody make advance) cursor) := by
  have stored :
      Stored table make advance (bound - cursor.i) cursor
        (loopTo bound (storeBody make advance) cursor) :=
    loopTo_stored bound reached.at
  have index := reached.index
  have startLe := reached.le
  have last := stored.i
  refine ⟨by omega, stored.at, by omega, ?_⟩
  exact (stored.frame.mono (by omega) (by omega)).trans
    (reached.frame.mono (by omega) (by omega))

theorem zeros (reached : Reached table start i cursor) (bound : Nat)
    (le : i ≤ bound) :
    Reached table start bound (loopTo bound putZero cursor) :=
  reached.loop (fun _ => 0#32) id le

theorem pages (reached : Reached table start i cursor) (bound : Nat)
    (make : BitVec 20 → PageEntry) (base : BitVec 20) (le : i ≤ bound) :
    Reached table start bound
      (loopTo bound (putPage make) (startRegion base cursor)) :=
  (reached.region base).loop make (· + 1#20) le

/-- A mapping loop gives consecutive entries consecutive pages. -/
theorem pages_entry (reached : Reached table start i cursor)
    (make : BitVec 20 → PageEntry) (base : BitVec 20) {index : Nat}
    (lower : i ≤ index) (upper : index < bound) :
    (loopTo bound (putPage make) (startRegion base cursor)).mem.load32
        (table + 4 * index) =
      make (base + BitVec.ofNat 20 (index - i)) := by
  have region := reached.region base
  have stored :
      Stored table make (· + 1#20) (bound - (startRegion base cursor).i)
        (startRegion base cursor)
        (loopTo bound (putPage make) (startRegion base cursor)) :=
    loopTo_stored bound region.at
  have entry := stored.entries (index - i) (by rw [region.index]; omega)
  rw [region.index, Nat.add_sub_of_le lower, iterate_add_one] at entry
  exact entry

/-- A clearing loop leaves the entries before it alone. -/
theorem zeros_entry (reached : Reached table start i cursor)
    (bound : Nat) {index : Nat} (before : index < i) :
    (loopTo bound putZero cursor).mem.load32 (table + 4 * index) =
      cursor.mem.load32 (table + 4 * index) := by
  have stored :
      Stored table (fun _ => 0#32) id (bound - cursor.i) cursor
        (loopTo bound putZero cursor) :=
    loopTo_stored bound reached.at
  have here := reached.index
  exact (stored.frame.agreeOn (table + 4 * index) 4 (by omega)).load32

/-- A clearing loop clears the entries it runs over. -/
theorem zeros_zero (reached : Reached table start i cursor)
    {index : Nat} (lower : i ≤ index) (upper : index < bound) :
    (loopTo bound putZero cursor).mem.load32 (table + 4 * index) = 0#32 := by
  have stored :
      Stored table (fun _ => 0#32) id (bound - cursor.i) cursor
        (loopTo bound putZero cursor) :=
    loopTo_stored bound reached.at
  have here := reached.index
  have entry := stored.entries (index - i) (by omega)
  rw [here, Nat.add_sub_of_le lower] at entry
  exact entry

end Reached

/-! ## What `mem_init` leaves behind -/

theorem initKernelDirectory_spec (mem : Memory) :
    (initKernelDirectory mem).mem.load32 0x8f000 = kernelDirectoryEntry ∧
      ∀ index, 0 < index → index < 0x400 →
        (initKernelDirectory mem).mem.load32 (0x8f000 + 4 * index) = 0#32 := by
  have start :
      EntryCursor.At
        { put kernelDirectoryEntry
            { mem := mem, i := 0, entry := 0x8f000, pagingBaseAddr := 0#20 }
          with i := 1 } 0x8f000 := rfl
  have stored :
      Stored 0x8f000 (fun _ => 0#32) id (0x400 - 1) _
        (initKernelDirectory mem) :=
    loopTo_stored 0x400 start
  constructor
  · have untouched := stored.frame.agreeOn 0x8f000 4 (.inl (by
      change 0x8f000 + 4 ≤ 0x8f000 + 4 * 1
      omega))
    exact untouched.load32.trans
      (load32_store32_self mem 0x8f000 kernelDirectoryEntry)
  · intro index positive inTable
    have entry := stored.entries (index - 1) (by omega)
    have position : 1 + (index - 1) = index := by omega
    exact position ▸ entry

theorem initKernelDirectory_agreeOutside (mem : Memory) :
    AgreeOutside (initKernelDirectory mem).mem mem 0x8f000 0x1000 := by
  have start :
      EntryCursor.At
        { put kernelDirectoryEntry
            { mem := mem, i := 0, entry := 0x8f000, pagingBaseAddr := 0#20 }
          with i := 1 } 0x8f000 := rfl
  have stored :
      Stored 0x8f000 (fun _ => 0#32) id (0x400 - 1) _
        (initKernelDirectory mem) :=
    loopTo_stored 0x400 start
  have first := store32_agreeOutside mem 0x8f000 kernelDirectoryEntry
  exact (stored.frame.mono (by change 0x8f000 ≤ 0x8f000 + 4 * 1; omega)
      (by change 0x8f000 + 4 * 1 + _ ≤ _; omega)).trans
    (first.mono (by omega) (by omega))

theorem initLowTable_reached (mem : Memory) :
    Reached 0x90000 (tableStart mem) 0x100 (initLowTable mem) := by
  have start : Reached 0x90000 (tableStart mem) 0 (tableStart mem) :=
    .refl rfl
  have image :=
    (start.zeros 0x007 (by omega)).pages 0x086 kernelPageEntry 0x00007#20
      (by omega)
  have heap :=
    (image.zeros 0x095 (by omega)).pages 0x0a0 kernelPageEntry 0x00095#20
      (by omega)
  have video :=
    (heap.zeros 0x0b8 (by omega)).pages 0x0c0 videoPageEntry 0x000b8#20
      (by omega)
  exact video.zeros 0x100 (by omega)

theorem initHeapTable_reached (mem : Memory) :
    Reached 0x90000 (tableStart mem) 0xeff (initHeapTable mem) :=
  (initLowTable_reached mem).pages 0xeff kernelPageEntry 0x00100#20
    (by omega)

theorem initKernelTable_reached (mem : Memory) :
    Reached 0x90000 (tableStart mem) 0x40000 (initKernelTable mem) :=
  (initHeapTable_reached mem).zeros 0x40000 (by omega)

/-- The entries of the extended heap map each page to itself. -/
theorem initKernelTable_heapEntry (mem : Memory) (page : Nat)
    (lower : 0x100 ≤ page) (upper : page < 0xeff) :
    (initKernelTable mem).written.load32 (0x90000 + 4 * page) =
      kernelPageEntry (BitVec.ofNat 20 page) := by
  have number : 0x00100#20 + BitVec.ofNat 20 (page - 0x100) =
      BitVec.ofNat 20 page := by
    rw [← BitVec.ofNat_add, Nat.add_sub_of_le lower]
  rw [EntryCursor.written, initKernelTable,
    (initHeapTable_reached mem).zeros_entry 0x40000 upper, initHeapTable,
    (initLowTable_reached mem).pages_entry kernelPageEntry 0x00100#20
      lower upper, number]

/-- Clearing the rest of the table clears the first pages of the heap, too. -/
theorem memInit_zero (mem : Memory) (index : Nat)
    (lower : 0xeff ≤ index) (upper : index < 0x40000) :
    (memInit mem).load32 (0x90000 + 4 * index) = 0#32 := by
  rw [memInit, EntryCursor.written, initKernelTable]
  exact (initHeapTable_reached (initKernelDirectory mem).mem).zeros_zero
    lower upper

/-- The kernel page directory and page table which `mem_init` builds. -/
structure KernelTables (mem : Memory) : Prop where
  directory : mem.load32 0x8f000 = kernelDirectoryEntry
  unused : ∀ index, 0 < index → index < 0x400 →
    mem.load32 (0x8f000 + 4 * index) = 0#32
  heap : ∀ page, 0x100 ≤ page → page < 0x400 →
    mem.load32 (0x90000 + 4 * page) = kernelPageEntry (BitVec.ofNat 20 page)

/-- The loops over the page table do not touch the page directory. -/
theorem initKernelTable_agreeOn (mem : Memory) :
    AgreeOn (initKernelTable mem).written mem 0x8f000 0x1000 := by
  have tables := initKernelTable_reached mem
  have startIndex : (tableStart mem).i = 0 := rfl
  have startMem : (tableStart mem).mem = mem := rfl
  have frame := tables.frame
  rw [startIndex, startMem] at frame
  rw [EntryCursor.written]
  exact frame.agreeOn 0x8f000 0x1000 (by omega)

theorem memInit_agreeOn (mem : Memory) :
    AgreeOn (memInit mem) (initKernelDirectory mem).mem 0x8f000 0x1000 := by
  rw [memInit]
  exact initKernelTable_agreeOn (initKernelDirectory mem).mem

/-- A memory holds the kernel tables when its two pages hold the entries. -/
private theorem kernelTables_of {before after : Memory}
    (agree : AgreeOn after before 0x8f000 0x1000)
    (directory : before.load32 0x8f000 = kernelDirectoryEntry)
    (unused : ∀ index, 0 < index → index < 0x400 →
      before.load32 (0x8f000 + 4 * index) = 0#32)
    (heap : ∀ page, 0x100 ≤ page → page < 0xeff →
      after.load32 (0x90000 + 4 * page) =
        kernelPageEntry (BitVec.ofNat 20 page)) :
    KernelTables after where
  directory :=
    ((agree.sub 0x8f000 4 (by omega) (by omega)).load32).trans directory
  unused := by
    intro index positive inTable
    exact ((agree.sub (0x8f000 + 4 * index) 4
      (by omega) (by omega)).load32).trans (unused index positive inTable)
  heap := by
    intro page lower upper
    exact heap page lower (by omega)

theorem memInit_kernelTables (mem : Memory) :
    KernelTables (memInit mem) := by
  have directory := initKernelDirectory_spec mem
  apply kernelTables_of (memInit_agreeOn mem) directory.1 directory.2
  rw [memInit]
  exact initKernelTable_heapEntry (initKernelDirectory mem).mem

/-- The tables only depend on the pages which hold them. -/
theorem KernelTables.congr {before after : Memory}
    (tables : KernelTables before)
    (agree : AgreeOn after before 0x8f000 0x2000) : KernelTables after where
  directory :=
    ((agree.sub 0x8f000 4 (by omega) (by omega)).load32).trans
      tables.directory
  unused := by
    intro index positive inTable
    exact ((agree.sub (0x8f000 + 4 * index) 4
      (by omega) (by omega)).load32).trans
        (tables.unused index positive inTable)
  heap := by
    intro page lower upper
    exact ((agree.sub (0x90000 + 4 * page) 4
      (by omega) (by omega)).load32).trans (tables.heap page lower upper)

end MagicalOs.Kernel.PageTables
