import MagicalOs.Kernel.PageAllocation

/-!
# Accesses to the heap table

The scan of `mem_alloc` tests an entry of `heap_alloc_table` before it tests the
index, and `mem_free` computes an index from any address.  Both functions are
run together with the list of the indices that they read or write.  While a page
is free, all of them are below `MAX_HEAP_PAGES`; with a full table the scan reads
the byte behind the table, and the null pointer it ends with leads `mem_free`
far behind it.
-/

namespace MagicalOs.Kernel.HeapAccesses

open MagicalOs.Library.ByteMemory
open MagicalOs.Kernel.HeapPages
open MagicalOs.Kernel.PageAllocation

/-- The scan of `mem_alloc`, and the indices that it reads. -/
def tracedScan (table : HeapTable) : (remaining index : Nat) → Nat × List Nat
  | 0, index => (index, [index])
  | remaining + 1, index =>
      if table index ≠ 0#8 then
        let (stop, reads) := tracedScan table remaining (index + 1)
        (stop, index :: reads)
      else
        (index, [index])

/-- `mem_alloc`, and the indices that it reads or writes. -/
def tracedAlloc (table : HeapTable) : (Nat × HeapTable) × List Nat :=
  let (index, reads) := tracedScan table maxHeapPages 0
  if maxHeapPages ≤ index then
    ((0, table), reads)
  else
    ((heapStartAddr + index * pageSize, Function.update table index 1#8),
      reads ++ [index])

/-- `mem_free`, and the index that it writes. -/
def tracedFree (table : HeapTable) (page : Nat) : HeapTable × List Nat :=
  let index := pageIndex page
  (Function.update table index 0#8, [index])

section Scan

variable (table : HeapTable)

/-- The list does not change what the scan does. -/
theorem tracedScan_stop (remaining index : Nat) :
    (tracedScan table remaining index).1 =
      firstFree table remaining index := by
  induction remaining generalizing index with
  | zero => rfl
  | succ remaining hypothesis =>
      rw [tracedScan, firstFree]
      by_cases live : table index ≠ 0#8
      · rw [if_pos live, if_pos live]
        exact hypothesis (index + 1)
      · rw [if_neg live, if_neg live]

theorem le_firstFree (remaining index : Nat) :
    index ≤ firstFree table remaining index := by
  induction remaining generalizing index with
  | zero => exact Nat.le_refl index
  | succ remaining hypothesis =>
      rw [firstFree]
      by_cases live : table index ≠ 0#8
      · rw [if_pos live]
        exact Nat.le_of_succ_le (hypothesis (index + 1))
      · rw [if_neg live]

/-- A scan of one entry. -/
theorem mem_single (index entry : Nat) :
    entry ∈ [index] ↔ index ≤ entry ∧ entry ≤ index := by
  rw [List.mem_singleton]
  omega

/-- The scan reads every entry up to the one at which it stops. -/
theorem mem_tracedScan (remaining index entry : Nat) :
    entry ∈ (tracedScan table remaining index).2 ↔
      index ≤ entry ∧ entry ≤ firstFree table remaining index := by
  induction remaining generalizing index with
  | zero => exact mem_single index entry
  | succ remaining hypothesis =>
      rw [tracedScan, firstFree]
      by_cases live : table index ≠ 0#8
      · have above := le_firstFree table remaining (index + 1)
        rw [if_pos live, if_pos live]
        change entry ∈ index :: (tracedScan table remaining (index + 1)).2 ↔ _
        rw [List.mem_cons, hypothesis (index + 1)]
        omega
      · rw [if_neg live, if_neg live]
        exact mem_single index entry

/-- `mem_alloc` is the same with and without the list. -/
theorem tracedAlloc_erase : (tracedAlloc table).1 = memAlloc table := by
  have stop := tracedScan_stop table maxHeapPages 0
  rw [tracedAlloc, memAlloc, ← stop]
  rcases tracedScan table maxHeapPages 0 with ⟨index, reads⟩
  by_cases full : maxHeapPages ≤ index
  · simp only [if_pos full]
  · simp only [if_neg full]

theorem tracedFree_erase (page : Nat) :
    (tracedFree table page).1 = memFree table page :=
  rfl

/-- `mem_alloc` accesses the entries up to the next page. -/
theorem mem_tracedAlloc (entry : Nat) :
    entry ∈ (tracedAlloc table).2 ↔ entry ≤ nextPage table := by
  have reads := mem_tracedScan table maxHeapPages 0 entry
  have stop := tracedScan_stop table maxHeapPages 0
  rw [nextPage, ← stop]
  rw [← stop] at reads
  rw [tracedAlloc]
  generalize tracedScan table maxHeapPages 0 = scan at reads ⊢
  rcases scan with ⟨index, entries⟩
  by_cases full : maxHeapPages ≤ index
  · simp only [if_pos full]
    exact reads.trans (and_iff_right (Nat.zero_le entry))
  · simp only [if_neg full]
    rw [List.mem_append, List.mem_singleton, reads]
    omega

end Scan

/-! ## Indices below `MAX_HEAP_PAGES` -/

/-- Every access is inside the table. -/
def Inside (entries : List Nat) : Prop :=
  ∀ entry ∈ entries, entry < maxHeapPages

/-- A page of the table is free. -/
def SomeFree (table : HeapTable) : Prop :=
  ∃ page < maxHeapPages, ¬Live table page

section Inside

variable {table : HeapTable}

theorem someFree_iff : SomeFree table ↔ nextPage table < maxHeapPages := by
  constructor
  · rintro ⟨page, inTable, free⟩
    exact Nat.lt_of_le_of_lt (nextPage_le free) inTable
  · intro found
    exact ⟨nextPage table, found, not_live_nextPage found⟩

/-- `mem_alloc` stays inside the table if it can return a page. -/
theorem tracedAlloc_inside_iff :
    Inside (tracedAlloc table).2 ↔ SomeFree table := by
  rw [someFree_iff]
  constructor
  · intro inside
    exact inside _ ((mem_tracedAlloc table _).mpr (Nat.le_refl _))
  · intro found entry accessed
    exact Nat.lt_of_le_of_lt ((mem_tracedAlloc table entry).mp accessed) found

/-- The null pointer is taken for a page behind the table. -/
theorem pageIndex_null : pageIndex 0 = 0xfff00 := by
  decide

/-- `mem_free` stays inside the table if the page is one of it. -/
theorem tracedFree_inside_iff (later : HeapTable) :
    Inside (tracedFree later (memAlloc table).1).2 ↔ SomeFree table := by
  have single (index : Nat) : Inside [index] ↔ index < maxHeapPages :=
    List.forall_mem_singleton
  rw [tracedFree, single, someFree_iff]
  by_cases found : nextPage table < maxHeapPages
  · rw [memAlloc_of_lt found, pageIndex_heapPage found]
  · rw [memAlloc_of_ge (Nat.not_lt.mp found), pageIndex_null]
    apply iff_of_false _ found
    rw [maxHeapPages]
    decide

/-- Both functions stay inside the table if it has a free page. -/
theorem accesses_inside_iff (table : HeapTable) :
    (Inside (tracedAlloc table).2 ↔ SomeFree table) ∧
      ∀ later, Inside (tracedFree later (memAlloc table).1).2 ↔
        SomeFree table := by
  constructor
  · exact tracedAlloc_inside_iff
  · exact tracedFree_inside_iff

/-- A full table is read behind its end, and so is the null pointer freed. -/
theorem fullTable_not_inside :
    let full : HeapTable := fun _ => 1#8
    maxHeapPages ∈ (tracedAlloc full).2 ∧ (memAlloc full).1 = 0 ∧
      (tracedFree full 0).2 = [0xfff00] := by
  intro full
  have exhausted : maxHeapPages ≤ nextPage full := by
    apply Nat.le_of_not_lt
    intro found
    exact not_live_nextPage found (by decide)
  refine ⟨?_, ?_, ?_⟩
  · exact (mem_tracedAlloc full maxHeapPages).mpr exhausted
  · rw [memAlloc_of_ge exhausted]
  · rw [tracedFree, pageIndex_null]

end Inside

end MagicalOs.Kernel.HeapAccesses
