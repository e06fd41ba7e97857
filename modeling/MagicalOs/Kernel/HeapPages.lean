import MagicalOs.Library.ByteMemory
import Mathlib.Logic.Function.Basic
import Mathlib.Order.Interval.Finset.Nat

/-!
# The page allocator

`mem_alloc` returns the first heap page whose entry in `heap_alloc_table` is
zero and marks it; `mem_free` clears the entry of a page without looking at
it.  The table is a function on all indices: what stands behind its last entry
is the memory which follows the table.
-/

namespace MagicalOs.Kernel.HeapPages

open MagicalOs.Library.ByteMemory

/-- `HEAP_START_ADDR`. -/
def heapStartAddr : Nat := 0x00100000

/-- `MAX_HEAP_PAGES`. -/
def maxHeapPages : Nat := 3584

/-- `PAGE_SIZE`. -/
def pageSize : Nat := 0x1000

/-- `heap_alloc_table`. -/
abbrev HeapTable := Nat → Byte

/-- The index at which the scan of `mem_alloc` stops, from `index` on. -/
def firstFree (table : HeapTable) : (remaining index : Nat) → Nat
  | 0, index => index
  | remaining + 1, index =>
      if table index ≠ 0#8 then
        firstFree table remaining (index + 1)
      else
        index

/-- `mem_alloc`; the null pointer is zero. -/
def memAlloc (table : HeapTable) : Nat × HeapTable :=
  let index := firstFree table maxHeapPages 0
  if maxHeapPages ≤ index then
    (0, table)
  else
    (heapStartAddr + index * pageSize, Function.update table index 1#8)

/-- The index `mem_free` computes, in unsigned arithmetic. -/
def pageIndex (page : Nat) : Nat :=
  ((BitVec.ofNat 32 page - BitVec.ofNat 32 heapStartAddr) /
    BitVec.ofNat 32 pageSize).toNat

/-- `mem_free`. -/
def memFree (table : HeapTable) (page : Nat) : HeapTable :=
  Function.update table (pageIndex page) 0#8

/-! ## Heap pages -/

/-- The address of the heap page with number `index`. -/
def heapPage (index : Nat) : Nat := heapStartAddr + index * pageSize

/-- The address is the one of a heap page. -/
def IsHeapPage (address : Nat) : Prop :=
  ∃ index < maxHeapPages, address = heapPage index

/-- A page of the table is live. -/
def Live (table : HeapTable) (index : Nat) : Prop :=
  table index ≠ 0#8

instance (table : HeapTable) (index : Nat) : Decidable (Live table index) :=
  inferInstanceAs (Decidable (_ ≠ _))

theorem heapPage_eq (index : Nat) : heapPage index = 0x100000 + index * 4096 :=
  rfl

theorem heapPage_le {left right : Nat} (le : left ≤ right) :
    heapPage left ≤ heapPage right :=
  Nat.add_le_add_left (Nat.mul_le_mul_right pageSize le) heapStartAddr

@[simp]
theorem heapPage_inj {left right : Nat} :
    heapPage left = heapPage right ↔ left = right := by
  simp only [heapPage_eq]
  omega

namespace IsHeapPage

variable {left right address : Nat}

theorem lower (page : IsHeapPage address) : 0x100000 ≤ address := by
  rcases page with ⟨index, _, rfl⟩
  rw [heapPage_eq]
  omega

theorem upper (page : IsHeapPage address) : address + 4096 ≤ 0xf00000 := by
  rcases page with ⟨index, small, rfl⟩
  rw [heapPage_eq]
  rw [maxHeapPages] at small
  omega

theorem ne_null (page : IsHeapPage address) : address ≠ 0 := by
  have := page.lower
  omega

theorem small (page : IsHeapPage address) : address < 2 ^ 32 := by
  have := page.upper
  omega

theorem aligned (page : IsHeapPage address) : address % 4096 = 0 := by
  rcases page with ⟨index, _, rfl⟩
  rw [heapPage_eq]
  omega

/-- Two different heap pages are a page apart. -/
theorem apart (leftPage : IsHeapPage left) (rightPage : IsHeapPage right)
    (different : left ≠ right) :
    left + 4096 ≤ right ∨ right + 4096 ≤ left := by
  have leftAligned := leftPage.aligned
  have rightAligned := rightPage.aligned
  omega

end IsHeapPage

/-! ## The scan -/

/-- The scan passes live pages only. -/
theorem live_of_lt_firstFree (table : HeapTable) (remaining index page : Nat)
    (lower : index ≤ page) (upper : page < firstFree table remaining index) :
    Live table page := by
  induction remaining generalizing index with
  | zero =>
      rw [firstFree] at upper
      omega
  | succ remaining induction =>
      rw [firstFree] at upper
      split at upper
      next live =>
        by_cases here : page = index
        · exact here ▸ live
        · exact induction (index + 1) (by omega) upper
      next => omega

/-- A scan which stops early has found a free page. -/
theorem free_firstFree (table : HeapTable) (remaining index : Nat)
    (stopped : firstFree table remaining index < index + remaining) :
    ¬Live table (firstFree table remaining index) := by
  induction remaining generalizing index with
  | zero =>
      rw [firstFree] at stopped
      omega
  | succ remaining induction =>
      rw [firstFree] at stopped ⊢
      split at stopped
      next live =>
        rw [if_pos live]
        exact induction (index + 1) (by omega)
      next free =>
        rw [if_neg free]
        exact free

/-! ## What an allocation returns -/

/-- The page a successful allocation takes. -/
@[irreducible]
def nextPage (table : HeapTable) : Nat := firstFree table maxHeapPages 0

/-- Every page below the next one is live. -/
theorem live_of_lt_nextPage {table : HeapTable} {page : Nat}
    (below : page < nextPage table) : Live table page := by
  rw [nextPage] at below
  exact live_of_lt_firstFree table maxHeapPages 0 page (Nat.zero_le page) below

theorem not_live_nextPage {table : HeapTable}
    (found : nextPage table < maxHeapPages) :
    ¬Live table (nextPage table) := by
  rw [nextPage] at found ⊢
  exact free_firstFree table maxHeapPages 0 (by omega)

/-- The next page is at most any free page of the table. -/
theorem nextPage_le {table : HeapTable} {page : Nat}
    (free : ¬Live table page) : nextPage table ≤ page :=
  Nat.le_of_not_lt fun below => free (live_of_lt_nextPage below)

theorem memAlloc_eq (table : HeapTable) :
    memAlloc table =
      if maxHeapPages ≤ nextPage table then
        (0, table)
      else
        (heapPage (nextPage table),
          Function.update table (nextPage table) 1#8) := by
  rw [nextPage]
  rfl

theorem memAlloc_of_lt {table : HeapTable}
    (found : nextPage table < maxHeapPages) :
    memAlloc table =
      (heapPage (nextPage table),
        Function.update table (nextPage table) 1#8) := by
  rw [memAlloc_eq, if_neg (Nat.not_le.mpr found)]

theorem memAlloc_of_ge {table : HeapTable}
    (exhausted : maxHeapPages ≤ nextPage table) :
    memAlloc table = (0, table) := by
  rw [memAlloc_eq, if_pos exhausted]

/-! ## Free pages -/

/-- The numbers of the free pages. -/
@[irreducible]
def freePages (table : HeapTable) : Finset Nat :=
  (Finset.range maxHeapPages).filter fun page => ¬Live table page

/-- The table after the next page has been taken. -/
def takePage (table : HeapTable) : HeapTable :=
  Function.update table (nextPage table) 1#8

theorem mem_freePages {table : HeapTable} {page : Nat} :
    page ∈ freePages table ↔ page < maxHeapPages ∧ ¬Live table page := by
  simp [freePages]

theorem live_takePage_iff {table : HeapTable} {page : Nat} :
    Live (takePage table) page ↔ Live table page ∨ page = nextPage table := by
  by_cases taken : page = nextPage table
  · simp [Live, takePage, taken]
  · simp [Live, takePage, taken]

/-- While a page is free, the next page is one of the table. -/
theorem nextPage_lt {table : HeapTable}
    (free : 0 < (freePages table).card) : nextPage table < maxHeapPages := by
  rcases Finset.card_pos.mp free with ⟨page, member⟩
  rcases mem_freePages.mp member with ⟨inTable, notLive⟩
  exact Nat.lt_of_le_of_lt (nextPage_le notLive) inTable

theorem memAlloc_of_free {table : HeapTable}
    (free : 0 < (freePages table).card) :
    memAlloc table = (heapPage (nextPage table), takePage table) :=
  memAlloc_of_lt (nextPage_lt free)

theorem freePages_takePage (table : HeapTable) :
    freePages (takePage table) = (freePages table).erase (nextPage table) := by
  ext page
  rw [Finset.mem_erase, mem_freePages, mem_freePages, live_takePage_iff]
  tauto

/-- Taking a page leaves one free page less. -/
theorem card_freePages_takePage {table : HeapTable}
    (free : 0 < (freePages table).card) :
    (freePages (takePage table)).card = (freePages table).card - 1 := by
  have member : nextPage table ∈ freePages table :=
    mem_freePages.mpr ⟨nextPage_lt free, not_live_nextPage (nextPage_lt free)⟩
  rw [freePages_takePage, Finset.card_erase_of_mem member]

/-! ## Tables which were never freed from -/

/-- Exactly the first `count` pages are live. -/
def Prefix (table : HeapTable) (count : Nat) : Prop :=
  ∀ page < maxHeapPages, Live table page ↔ page < count

namespace Prefix

variable {table : HeapTable} {count : Nat}

theorem card (holds : Prefix table count) :
    (freePages table).card = maxHeapPages - count := by
  have free : freePages table = Finset.Ico count maxHeapPages := by
    ext page
    rw [mem_freePages, Finset.mem_Ico]
    constructor
    · rintro ⟨inTable, notLive⟩
      exact ⟨Nat.le_of_not_lt fun below =>
        notLive ((holds page inTable).mpr below), inTable⟩
    · rintro ⟨above, inTable⟩
      exact ⟨inTable, fun live =>
        Nat.not_lt.mpr above ((holds page inTable).mp live)⟩
  rw [free, Nat.card_Ico]

theorem nextPage_eq (holds : Prefix table count)
    (room : count < maxHeapPages) : nextPage table = count := by
  have free : ¬Live table count := fun live =>
    Nat.lt_irrefl count ((holds count room).mp live)
  have le := nextPage_le free
  rcases Nat.lt_or_eq_of_le le with below | equal
  · have found : nextPage table < maxHeapPages := by omega
    exact absurd ((holds _ found).mpr below) (not_live_nextPage found)
  · exact equal

/-- Taking a page extends the prefix. -/
theorem takePage (holds : Prefix table count)
    (room : count < maxHeapPages) :
    Prefix (HeapPages.takePage table) (count + 1) := by
  intro page inTable
  rw [live_takePage_iff, holds page inTable, holds.nextPage_eq room]
  omega

end Prefix

end MagicalOs.Kernel.HeapPages
