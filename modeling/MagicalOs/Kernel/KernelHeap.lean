import MagicalOs.Kernel.HeapPages
import Mathlib.Algebra.GroupWithZero.Nat
import Mathlib.Data.Set.BooleanAlgebra
import Mathlib.Order.CompletePartialOrder

/-!
# The heap of the kernel

`kmalloc` hands out pieces of one page, in ascending order, and never takes
them back; `kfree` does nothing.  It aborts the kernel when there is no page,
or when the page is used up.  The counter of used bytes is updated before it is
compared with the page size, and in 32-bit arithmetic: a size which makes it
wrap around passes the test, and the pieces handed out later overlap earlier
ones.
-/

namespace MagicalOs.Kernel.KernelHeap

open MagicalOs.Library.ByteMemory
open MagicalOs.Kernel.HeapPages

/-- The page allocator, and the static variables of `kmalloc`. -/
structure Heap where
  heapAllocTable : HeapTable
  sTotalSize : Word
  sTopAddr : Nat

/-- The heap before the first call of `kmalloc`. -/
def staticHeap (table : HeapTable) : Heap where
  heapAllocTable := table
  sTotalSize := 0#32
  sTopAddr := 0

/-- The first call takes a page; there is no result when that fails. -/
def takeTop (heap : Heap) : Option Heap :=
  if heap.sTopAddr = 0 then
    let (page, table) := memAlloc heap.heapAllocTable
    if page = 0 then
      none
    else
      some { heap with heapAllocTable := table, sTopAddr := page }
  else
    some heap

/-- The part of `kmalloc` behind the allocation of the page. -/
def bump (heap : Heap) (size : Word) : Option (Nat × Heap) :=
  let total := heap.sTotalSize + size
  if BitVec.ofNat 32 pageSize < total then
    none
  else
    some ((BitVec.ofNat 32 heap.sTopAddr + total - size).toNat,
      { heap with sTotalSize := total })

/-- `kmalloc`; there is no result when it aborts. -/
def kmalloc (heap : Heap) (size : Word) : Option (Nat × Heap) :=
  (takeTop heap).bind fun heap => bump heap size

/-! ## What is handed out -/

/-- The page of the heap, once there is one, and the part which is used. -/
structure Valid (heap : Heap) : Prop where
  top : heap.sTopAddr ≠ 0 → IsHeapPage heap.sTopAddr
  unused : heap.sTopAddr = 0 → heap.sTotalSize = 0#32
  within : heap.sTotalSize.toNat ≤ pageSize

theorem valid_static (table : HeapTable) : Valid (staticHeap table) :=
  ⟨fun nonNull => absurd rfl nonNull, fun _ => rfl, by simp [staticHeap]⟩

/-- There is a page, or one can be taken. -/
def HasPage (heap : Heap) : Prop :=
  heap.sTopAddr ≠ 0 ∨ nextPage heap.heapAllocTable < maxHeapPages

/-- The piece starts behind the part of the page which was used. -/
structure Handed (before : Heap) (size : Word) (address : Nat)
    (after : Heap) : Prop where
  valid : Valid after
  top : IsHeapPage after.sTopAddr
  same : before.sTopAddr ≠ 0 → after.sTopAddr = before.sTopAddr
  address : address = after.sTopAddr + before.sTotalSize.toNat
  total : after.sTotalSize = before.sTotalSize + size

section Kmalloc

variable {heap topped after : Heap} {size : Word} {address : Nat}

theorem takeTop_of_null (null : heap.sTopAddr = 0)
    (found : nextPage heap.heapAllocTable < maxHeapPages) :
    takeTop heap =
      some
        { heap with
          heapAllocTable := takePage heap.heapAllocTable
          sTopAddr := heapPage (nextPage heap.heapAllocTable) } := by
  have page : IsHeapPage (heapPage (nextPage heap.heapAllocTable)) :=
    ⟨_, found, rfl⟩
  rw [takeTop, if_pos null, memAlloc_of_lt found]
  exact if_neg page.ne_null

theorem takeTop_of_exhausted (null : heap.sTopAddr = 0)
    (exhausted : maxHeapPages ≤ nextPage heap.heapAllocTable) :
    takeTop heap = none := by
  rw [takeTop, if_pos null, memAlloc_of_ge exhausted]
  exact if_pos rfl

theorem takeTop_of_top (nonNull : heap.sTopAddr ≠ 0) :
    takeTop heap = some heap := by
  rw [takeTop, if_neg nonNull]

/-- The page is taken whenever there is one, and the counter is kept. -/
theorem takeTop_spec (valid : Valid heap) :
    (HasPage heap → ∃ topped, takeTop heap = some topped) ∧
      ∀ topped, takeTop heap = some topped →
        HasPage heap ∧ IsHeapPage topped.sTopAddr ∧
          topped.sTotalSize = heap.sTotalSize ∧
          (heap.sTopAddr ≠ 0 → topped.sTopAddr = heap.sTopAddr) := by
  by_cases null : heap.sTopAddr = 0
  · rcases Nat.lt_or_ge (nextPage heap.heapAllocTable) maxHeapPages with
      found | exhausted
    · constructor
      · intro _
        exact ⟨_, takeTop_of_null null found⟩
      · intro topped taken
        rw [takeTop_of_null null found] at taken
        cases taken
        exact ⟨.inr found, ⟨_, found, rfl⟩, rfl, fun top => absurd null top⟩
    · constructor
      · rintro (top | found)
        · exact absurd null top
        · exact absurd found (Nat.not_lt.mpr exhausted)
      · intro topped taken
        rw [takeTop_of_exhausted null exhausted] at taken
        cases taken
  · constructor
    · intro _
      exact ⟨_, takeTop_of_top null⟩
    · intro topped taken
      rw [takeTop_of_top null] at taken
      cases taken
      exact ⟨.inl null, valid.top null, rfl, fun _ => rfl⟩

/-- A call which returns has moved the counter, within the page. -/
theorem kmalloc_handed (valid : Valid heap)
    (ran : kmalloc heap size = some (address, after)) :
    Handed heap size address after := by
  rcases Option.bind_eq_some_iff.mp ran with ⟨topped, taken, bumped⟩
  rcases (takeTop_spec valid).2 topped taken with ⟨_, top, total, same⟩
  rw [bump] at bumped
  split at bumped
  · cases bumped
  next within =>
    cases bumped
    have small := top.small
    have upper := top.upper
    have used := valid.within
    have limit : (BitVec.ofNat 32 pageSize).toNat = pageSize := by decide
    rw [total, BitVec.lt_def, limit, Nat.not_lt] at within
    refine ⟨⟨fun _ => top, fun null => absurd null top.ne_null, ?_⟩, top,
      same, ?_, by rw [total]⟩
    · rw [total]
      exact within
    · have piece :
          BitVec.ofNat 32 topped.sTopAddr + (heap.sTotalSize + size) - size =
            BitVec.ofNat 32 (topped.sTopAddr + heap.sTotalSize.toNat) := by
        rw [← BitVec.add_assoc, BitVec.add_sub_cancel, BitVec.ofNat_add,
          BitVec.ofNat_toNat, BitVec.setWidth_eq]
      rw [pageSize] at used
      rw [total, piece, BitVec.toNat_ofNat, Nat.mod_eq_of_lt (by omega)]

/-- `kmalloc` returns exactly when there is a page and the counter allows. -/
theorem kmalloc_isSome_iff (valid : Valid heap) :
    (kmalloc heap size).isSome ↔
      HasPage heap ∧ (heap.sTotalSize + size).toNat ≤ pageSize := by
  have limit : (BitVec.ofNat 32 pageSize).toNat = pageSize := by decide
  constructor
  · intro returned
    rcases Option.isSome_iff_exists.mp returned with ⟨⟨address, after⟩, ran⟩
    have handed := kmalloc_handed valid ran
    rcases Option.bind_eq_some_iff.mp ran with ⟨topped, taken, _⟩
    rw [← handed.total]
    exact ⟨((takeTop_spec valid).2 topped taken).1, handed.valid.within⟩
  · rintro ⟨page, within⟩
    rcases (takeTop_spec valid).1 page with ⟨topped, taken⟩
    rcases (takeTop_spec valid).2 topped taken with ⟨_, _, total, _⟩
    have passes : ¬BitVec.ofNat 32 pageSize < topped.sTotalSize + size := by
      rw [BitVec.lt_def, limit, total]
      exact Nat.not_lt.mpr within
    rw [kmalloc, taken, Option.bind_some, bump, if_neg passes]
    rfl

end Kmalloc

/-! ## Runs of `kmalloc` -/

/-- A piece which a call of `kmalloc` returned. -/
structure Block where
  address : Nat
  size : Word

/--
The heaps which calls of `kmalloc` lead to when none of them aborts, with the
blocks returned so far.  Between the calls, pages may be allocated and freed.
-/
inductive KmallocRun (table : HeapTable) : Heap → List Block → Prop where
  | start : KmallocRun table (staticHeap table) []
  | pages {heap : Heap} {blocks : List Block} (other : HeapTable)
      (before : KmallocRun table heap blocks) :
      KmallocRun table { heap with heapAllocTable := other } blocks
  | kmalloc {heap after : Heap} {blocks : List Block} {size : Word}
      {address : Nat} (before : KmallocRun table heap blocks)
      (ran : kmalloc heap size = some (address, after)) :
      KmallocRun table after (blocks ++ [⟨address, size⟩])

/-- The bytes of a block. -/
def Block.bytes (block : Block) : Set Nat :=
  { address | block.address ≤ address ∧
    address < block.address + block.size.toNat }

/-- The blocks share no byte, and all of them lie inside the page. -/
structure Separated (page : Nat) (blocks : List Block) : Prop where
  disjoint : blocks.Pairwise fun first second =>
    Disjoint first.bytes second.bytes
  inside : ∀ block ∈ blocks, page ≤ block.address ∧
    block.address + block.size.toNat ≤ page + pageSize

/-- The sizes which were asked for, in exact arithmetic. -/
def asked (blocks : List Block) : Nat :=
  (blocks.map fun block => block.size.toNat).sum

/-- The blocks fill the page from its start on. -/
structure Filled (heap : Heap) (blocks : List Block) : Prop where
  valid : Valid heap
  top : heap.sTopAddr = 0 → blocks = []
  inside : asked blocks ≤ pageSize → ∀ block ∈ blocks,
    heap.sTopAddr ≤ block.address ∧
      block.address + block.size.toNat ≤ heap.sTopAddr + asked blocks
  disjoint : asked blocks ≤ pageSize → blocks.Pairwise fun first second =>
    Disjoint first.bytes second.bytes
  total : asked blocks ≤ pageSize → heap.sTotalSize.toNat = asked blocks
  small : (∀ block ∈ blocks, block.size.toNat ≤ pageSize) →
    asked blocks ≤ pageSize

section Runs

variable {table : HeapTable} {heap after : Heap} {blocks : List Block}
  {size : Word} {address : Nat}

theorem asked_append (blocks : List Block) (address : Nat) (size : Word) :
    asked (blocks ++ [⟨address, size⟩]) = asked blocks + size.toNat := by
  simp [asked]

/-- Blocks which end before another one starts share no byte with it. -/
theorem disjoint_bytes {first second : Block}
    (apart : first.address + first.size.toNat ≤ second.address) :
    Disjoint first.bytes second.bytes := by
  rw [Set.disjoint_left]
  rintro byte ⟨_, below⟩ ⟨above, _⟩
  omega

/-- One more block extends the filled part of the page. -/
theorem Filled.kmalloc (filled : Filled heap blocks)
    (ran : kmalloc heap size = some (address, after)) :
    Filled after (blocks ++ [⟨address, size⟩]) := by
  have handed := kmalloc_handed filled.valid ran
  have within := handed.valid.within
  have before := filled.valid.within
  rw [handed.total, BitVec.toNat_add] at within
  rw [pageSize] at within before
  have unchanged : blocks ≠ [] → after.sTopAddr = heap.sTopAddr :=
    fun nonEmpty => handed.same fun null => nonEmpty (filled.top null)
  constructor
  · exact handed.valid
  · exact fun null => absurd null handed.top.ne_null
  · intro enough block member
    rw [asked_append] at enough ⊢
    rw [pageSize] at enough
    have earlier : asked blocks ≤ pageSize := by
      rw [pageSize]
      omega
    have total := filled.total earlier
    rcases List.mem_append.mp member with old | last
    · have inside := filled.inside earlier block old
      rw [unchanged (List.ne_nil_of_mem old)]
      omega
    · rw [List.mem_singleton.mp last, handed.address]
      dsimp only
      omega
  · intro enough
    rw [asked_append, pageSize] at enough
    have earlier : asked blocks ≤ pageSize := by
      rw [pageSize]
      omega
    have total := filled.total earlier
    refine List.pairwise_append.mpr
      ⟨filled.disjoint earlier, List.pairwise_singleton _ _, ?_⟩
    intro block old last lastMem
    rw [List.mem_singleton.mp lastMem]
    have inside := filled.inside earlier block old
    apply disjoint_bytes
    change block.address + block.size.toNat ≤ address
    rw [handed.address, unchanged (List.ne_nil_of_mem old)]
    omega
  · intro enough
    rw [asked_append, pageSize] at enough
    have earlier : asked blocks ≤ pageSize := by
      rw [pageSize]
      omega
    have total := filled.total earlier
    rw [asked_append, handed.total, BitVec.toNat_add, total]
    exact Nat.mod_eq_of_lt (by omega)
  · intro each
    have last := each ⟨address, size⟩ (by simp)
    have earlier : asked blocks ≤ pageSize :=
      filled.small fun block old => each block (List.mem_append_left _ old)
    have total := filled.total earlier
    have small : size.toNat ≤ pageSize := last
    rw [pageSize] at small earlier ⊢
    rw [asked_append]
    omega

theorem KmallocRun.filled (run : KmallocRun table heap blocks) :
    Filled heap blocks := by
  induction run with
  | start =>
      exact ⟨valid_static table, fun _ => rfl, by simp, by simp, by
        simp [staticHeap, asked], by simp [asked]⟩
  | pages other before induction =>
      exact ⟨⟨induction.valid.top, induction.valid.unused,
        induction.valid.within⟩, induction.top, induction.inside,
        induction.disjoint, induction.total, induction.small⟩
  | kmalloc before ran induction => exact induction.kmalloc ran

/--
The blocks are separated exactly when the sizes add up to at most the page
size in exact arithmetic.
-/
theorem separated_iff (run : KmallocRun table heap blocks) :
    Separated heap.sTopAddr blocks ↔ asked blocks ≤ pageSize := by
  have filled := run.filled
  constructor
  · intro separated
    refine filled.small fun block member => ?_
    have inside := separated.inside block member
    omega
  · intro enough
    refine ⟨filled.disjoint enough, fun block member => ?_⟩
    have inside := filled.inside enough block member
    omega

/-- A size the counter allows can be asked for once there is a page. -/
theorem KmallocRun.extend (size : Word) (run : KmallocRun table heap blocks)
    (page : HasPage heap)
    (allowed : (heap.sTotalSize + size).toNat ≤ pageSize) :
    ∃ address after, Handed heap size address after ∧
      KmallocRun table after (blocks ++ [⟨address, size⟩]) := by
  have valid := run.filled.valid
  have returned := (kmalloc_isSome_iff valid).mpr ⟨page, allowed⟩
  rcases Option.isSome_iff_exists.mp returned with ⟨⟨address, after⟩, ran⟩
  exact ⟨address, after, kmalloc_handed valid ran, .kmalloc run ran⟩

end Runs

/-- A heap without live pages has a page for `kmalloc`. -/
theorem hasPage_empty : HasPage (staticHeap fun _ => 0#8) := by
  right
  refine Nat.lt_of_le_of_lt (nextPage_le ?_) (show 0 < maxHeapPages by decide)
  exact fun live => live rfl

/-- One small block lies inside the page. -/
theorem oneBlock_separated : ∃ heap block,
    KmallocRun (fun _ => 0#8) heap [block] ∧ block.size = 100#32 ∧
      Separated heap.sTopAddr [block] := by
  have initial : KmallocRun (fun _ => 0#8) (staticHeap fun _ => 0#8) [] :=
    .start
  rcases initial.extend 100#32 hasPage_empty (by decide) with
    ⟨address, heap, _, run⟩
  exact ⟨heap, ⟨address, 100#32⟩, run, rfl,
    (separated_iff run).mpr (by rw [asked_append]; decide)⟩

/--
Sizes 100, `2 ^ 32 - 50` and 100: the second call makes the counter wrap
around to 50, and the third block overlaps the first one.
-/
theorem wrappedCounter_overlap : ∃ heap first huge third,
    KmallocRun (fun _ => 0#8) heap [first, huge, third] ∧
      first.size = 100#32 ∧ huge.size = 4294967246#32 ∧
      third.size = 100#32 ∧ ¬Separated heap.sTopAddr [first, huge, third] := by
  have initial : KmallocRun (fun _ => 0#8) (staticHeap fun _ => 0#8) [] :=
    .start
  rcases initial.extend 100#32 hasPage_empty (by decide) with
    ⟨firstAddress, heap1, handed1, run1⟩
  have total1 : heap1.sTotalSize = 100#32 := handed1.total
  have top1 := handed1.top.ne_null
  rcases run1.extend 4294967246#32 (.inl top1)
    (by rw [total1]; decide) with ⟨hugeAddress, heap2, handed2, run2⟩
  have total2 : heap2.sTotalSize = 50#32 := by
    rw [handed2.total, total1]
    decide
  have top2 := handed2.top.ne_null
  rcases run2.extend 100#32 (.inl top2)
    (by rw [total2]; decide) with ⟨thirdAddress, heap3, handed3, run3⟩
  have same2 := handed2.same top1
  have same3 := handed3.same top2
  have firstStart : firstAddress = heap1.sTopAddr + 0 := handed1.address
  have thirdStart : thirdAddress = heap3.sTopAddr + 50 := by
    rw [handed3.address, total2]
    rfl
  refine ⟨heap3, ⟨firstAddress, 100#32⟩, ⟨hugeAddress, 4294967246#32⟩,
    ⟨thirdAddress, 100#32⟩, run3, rfl, rfl, rfl, ?_⟩
  intro separated
  have apart := (List.pairwise_cons.mp separated.disjoint).1
    ⟨thirdAddress, 100#32⟩ (by simp)
  refine Set.disjoint_left.mp apart
    (show thirdAddress ∈ _ from ⟨?_, ?_⟩) ⟨Nat.le_refl _, ?_⟩
  · change firstAddress ≤ thirdAddress
    omega
  · change thirdAddress < firstAddress + 100
    omega
  · change thirdAddress < thirdAddress + 100
    omega

end MagicalOs.Kernel.KernelHeap
