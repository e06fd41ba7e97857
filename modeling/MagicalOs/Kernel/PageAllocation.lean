import MagicalOs.Kernel.HeapPages

/-!
# The pages which are handed out

The abstract state of the page allocator is the set of the pages which were
returned by `mem_alloc` and not freed since.  `heap_alloc_table` refines it as
long as only such pages are freed: an entry is set exactly when its page is in
the set.
-/

namespace MagicalOs.Kernel.PageAllocation

open MagicalOs.Library.ByteMemory
open MagicalOs.Kernel.HeapPages

/--
The tables which calls of `mem_alloc` and `mem_free` lead to, with the pages
which are live.  Only live pages are freed.
-/
inductive PageRun : HeapTable → Finset Nat → Prop where
  | start (table : HeapTable)
      (cleared : ∀ index < maxHeapPages, table index = 0#8) :
      PageRun table ∅
  | alloc {table : HeapTable} {live : Finset Nat}
      (before : PageRun table live) (granted : (memAlloc table).1 ≠ 0) :
      PageRun (memAlloc table).2 (insert (memAlloc table).1 live)
  | exhausted {table : HeapTable} {live : Finset Nat}
      (before : PageRun table live) (null : (memAlloc table).1 = 0) :
      PageRun (memAlloc table).2 live
  | free {table : HeapTable} {live : Finset Nat} {page : Nat}
      (before : PageRun table live) (held : page ∈ live) :
      PageRun (memFree table page) (live.erase page)

/-- The entries which are set are those of the live pages. -/
structure Refines (table : HeapTable) (live : Finset Nat) : Prop where
  pages : ∀ page ∈ live, IsHeapPage page
  entries : ∀ index < maxHeapPages,
    Live table index ↔ heapPage index ∈ live

/-- What the next call of `mem_alloc` or `mem_free` does. -/
structure Correct (table : HeapTable) (live : Finset Nat) : Prop where
  granted : (memAlloc table).1 ≠ 0 →
    (memAlloc table).1 % pageSize = 0 ∧
      heapStartAddr ≤ (memAlloc table).1 ∧
      (memAlloc table).1 < heapStartAddr + maxHeapPages * pageSize ∧
      (memAlloc table).1 ∉ live ∧
      ∀ page, IsHeapPage page → page ∉ live → (memAlloc table).1 ≤ page
  exhausted : (memAlloc table).1 = 0 ↔ live.card = maxHeapPages
  freed : ∀ index < maxHeapPages, heapPage index ∈ live →
    ¬Live (memFree table (heapPage index)) index ∧
      ∀ other, other ≠ index →
        memFree table (heapPage index) other = table other

section Indices

variable {index : Nat}

/-- `mem_free` finds the entry of the page. -/
theorem pageIndex_heapPage (inHeap : index < maxHeapPages) :
    pageIndex (heapPage index) = index := by
  rw [maxHeapPages] at inHeap
  have start : heapStartAddr = 0x100000 := rfl
  have size : (BitVec.ofNat 32 pageSize).toNat = 4096 := by decide
  have offset :
      (BitVec.ofNat 32 (heapPage index) -
        BitVec.ofNat 32 heapStartAddr).toNat = index * 4096 := by
    rw [BitVec.toNat_sub, BitVec.toNat_ofNat, BitVec.toNat_ofNat,
      heapPage_eq, start]
    omega
  rw [pageIndex, BitVec.toNat_udiv, offset, size]
  exact Nat.mul_div_cancel index (by decide)

end Indices

section Refinement

variable {table : HeapTable} {live : Finset Nat} {index page : Nat}

theorem refines_start
    (cleared : ∀ index < maxHeapPages, table index = 0#8) :
    Refines table ∅ := by
  constructor
  · simp
  · intro index inHeap
    simp [Live, cleared index inHeap]

namespace Refines

variable (refines : Refines table live)
include refines

theorem alloc (found : nextPage table < maxHeapPages) :
    Refines (takePage table) (insert (heapPage (nextPage table)) live) := by
  constructor
  · intro page member
    rcases Finset.mem_insert.mp member with rfl | old
    · exact ⟨_, found, rfl⟩
    · exact refines.pages page old
  · intro index inHeap
    rw [live_takePage_iff, Finset.mem_insert, heapPage_inj,
      refines.entries index inHeap]
    exact or_comm

theorem free (inHeap : index < maxHeapPages) :
    Refines (memFree table (heapPage index)) (live.erase (heapPage index))
    := by
  constructor
  · intro page member
    exact refines.pages page (Finset.mem_of_mem_erase member)
  · intro other otherInHeap
    rw [memFree, pageIndex_heapPage inHeap, Finset.mem_erase, ne_eq,
      heapPage_inj, Live]
    by_cases same : other = index
    · simp [same]
    · simp only [Function.update_of_ne same, same, not_false_eq_true,
        true_and]
      exact refines.entries other otherInHeap

/-- The pages which are not live are those a scan can find. -/
theorem freePages_card : (freePages table).card + live.card = maxHeapPages := by
  have image : live = ((Finset.range maxHeapPages).filter
      fun index => Live table index).image heapPage := by
    ext page
    simp only [Finset.mem_image, Finset.mem_filter, Finset.mem_range]
    constructor
    · intro member
      rcases refines.pages page member with ⟨index, inHeap, rfl⟩
      exact ⟨index, ⟨inHeap, (refines.entries index inHeap).mpr member⟩, rfl⟩
    · rintro ⟨index, ⟨inHeap, entry⟩, rfl⟩
      exact (refines.entries index inHeap).mp entry
  have injective : Function.Injective heapPage :=
    fun _ _ => heapPage_inj.mp
  have split :=
    Finset.card_filter_add_card_filter_not
      (s := Finset.range maxHeapPages) fun index => Live table index
  rw [Finset.card_range] at split
  rw [image, Finset.card_image_of_injective _ injective, freePages]
  omega

theorem correct : Correct table live := by
  constructor
  · intro granted
    rcases Nat.lt_or_ge (nextPage table) maxHeapPages with found | full
    · have page : IsHeapPage (heapPage (nextPage table)) := ⟨_, found, rfl⟩
      rw [memAlloc_of_lt found]
      refine ⟨page.aligned, page.lower, ?_, ?_, ?_⟩
      · exact Nat.add_lt_add_left
          (Nat.mul_lt_mul_of_pos_right found (by decide)) heapStartAddr
      · intro member
        exact not_live_nextPage found
          ((refines.entries _ found).mpr member)
      · rintro page ⟨index, inHeap, rfl⟩ notLive
        refine heapPage_le (nextPage_le fun entry => notLive ?_)
        exact (refines.entries index inHeap).mp entry
    · exact absurd (by rw [memAlloc_of_ge full]) granted
  · have card := refines.freePages_card
    constructor
    · intro null
      by_contra notFull
      have free : 0 < (freePages table).card := by omega
      rw [memAlloc_of_free free] at null
      have page : IsHeapPage (heapPage (nextPage table)) :=
        ⟨_, nextPage_lt free, rfl⟩
      exact page.ne_null null
    · intro full
      rcases Nat.lt_or_ge (nextPage table) maxHeapPages with found | exhausted
      · have free : nextPage table ∈ freePages table :=
          mem_freePages.mpr ⟨found, not_live_nextPage found⟩
        have positive := Finset.card_pos.mpr ⟨_, free⟩
        omega
      · rw [memAlloc_of_ge exhausted]
  · intro index inHeap _
    rw [memFree, pageIndex_heapPage inHeap]
    constructor
    · simp [Live]
    · intro other different
      exact Function.update_of_ne different _ _

end Refines

/-- The table refines the set of live pages after every run. -/
theorem PageRun.refines (run : PageRun table live) : Refines table live := by
  induction run with
  | start table cleared => exact refines_start cleared
  | @alloc table live before granted induction =>
      rcases Nat.lt_or_ge (nextPage table) maxHeapPages with found | full
      · rw [memAlloc_of_lt found]
        exact induction.alloc found
      · exact absurd (by rw [memAlloc_of_ge full]) granted
  | @exhausted table live before null induction =>
      rcases Nat.lt_or_ge (nextPage table) maxHeapPages with found | full
      · have page : IsHeapPage (heapPage (nextPage table)) := ⟨_, found, rfl⟩
        rw [memAlloc_of_lt found] at null
        exact absurd null page.ne_null
      · rw [memAlloc_of_ge full]
        exact induction
  | free before held induction =>
      rcases induction.pages _ held with ⟨index, inHeap, rfl⟩
      exact induction.free inHeap

/-- Pages are handed out and taken back as the set of live pages says. -/
theorem pageRun_correct (run : PageRun table live) : Correct table live :=
  run.refines.correct

end Refinement

/-- The first allocation of a run. -/
theorem firstAllocation_correct :
    Correct (memAlloc fun _ => 0#8).2 {heapPage 0} := by
  have initial : PageRun (fun _ => 0#8) ∅ := .start _ fun _ _ => rfl
  have found : nextPage (fun _ => 0#8) ≤ 0 := nextPage_le fun live => live rfl
  have page : (memAlloc fun _ => 0#8).1 = heapPage 0 := by
    rw [memAlloc_of_lt (Nat.lt_of_le_of_lt found (by decide)),
      Nat.le_zero.mp found]
  have granted : (memAlloc fun _ => 0#8).1 ≠ 0 := by
    rw [page]
    decide
  have run := pageRun_correct (.alloc initial granted)
  rw [page] at run
  exact run

end MagicalOs.Kernel.PageAllocation
