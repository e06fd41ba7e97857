import MagicalOs.Kernel.KernelHeap
import MagicalOs.Library.SentinelList

/-!
# Lists of heap nodes

Two drivers keep a circular list with a static head, whose nodes come from
`kmalloc` and are linked in front.  The heap never takes a node back, so a new
node is none of those on the list.
-/

namespace MagicalOs.Kernel.HeapLists

open MagicalOs.Library.ByteMemory
open MagicalOs.Library.SentinelList
open MagicalOs.Kernel.HeapPages
open MagicalOs.Kernel.KernelHeap

/-- A pointer to the static head, or to a node from the heap. -/
inductive Pointer where
  | head
  | node (address : Nat)
  deriving DecidableEq

instance (heap : Heap) : Decidable (HasPage heap) :=
  inferInstanceAs (Decidable (_ ∨ _))

/-- The number of nodes of a size for which the heap has room. -/
def room (heap : Heap) (size : Word) : Nat :=
  if HasPage heap then
    (pageSize - heap.sTotalSize.toNat) / size.toNat
  else
    0

/-- The nodes of a list lie in the used part of the heap. -/
structure Kept (heap : Heap) (next : Pointer → Pointer)
    (nodes : List Pointer) : Prop where
  listed : Listed next .head nodes
  valid : Valid heap
  old : ∀ p ∈ nodes, ∃ address, p = .node address ∧ heap.sTopAddr ≠ 0 ∧
    address < heap.sTopAddr + heap.sTotalSize.toNat

theorem Kept.empty {heap : Heap} {next : Pointer → Pointer}
    (valid : Valid heap) (self : next .head = .head) : Kept heap next [] :=
  ⟨.empty self, valid, by simp⟩

/-- What the nodes hold, after a fresh node was filled. -/
theorem map_update_cons {α : Type*} (content : Pointer → α) (value : α)
    {p : Pointer} {nodes : List Pointer} (fresh : p ∉ nodes) :
    (p :: nodes).map (Function.update content p value) =
      value :: nodes.map content := by
  rw [List.map_cons, Function.update_self]
  congr 1
  apply List.map_congr_left
  intro other member
  have different : other ≠ p := by
    rintro rfl
    exact fresh member
  exact Function.update_of_ne different _ _

section Allocation

variable {heap after : Heap} {size : Word} {next : Pointer → Pointer}
  {nodes : List Pointer} {address : Nat}

/-- The counter of the heap after one more node. -/
theorem toNat_add_size (valid : Valid heap) (small : size.toNat ≤ pageSize) :
    (heap.sTotalSize + size).toNat =
      heap.sTotalSize.toNat + size.toNat := by
  have within := valid.within
  rw [pageSize] at within small
  rw [BitVec.toNat_add, Nat.mod_eq_of_lt (by omega)]

/-- There is room for a node exactly when `kmalloc` returns. -/
theorem room_eq_zero_iff (valid : Valid heap) (positive : 0 < size.toNat)
    (small : size.toNat ≤ pageSize) :
    room heap size = 0 ↔ kmalloc heap size = none := by
  have returns : (kmalloc heap size).isSome ↔ _ := kmalloc_isSome_iff valid
  rw [toNat_add_size valid small] at returns
  rw [← Option.not_isSome_iff_eq_none, returns, room]
  by_cases page : HasPage heap
  · have within := valid.within
    rw [if_pos page, Nat.div_eq_zero_iff_lt positive, and_iff_right page]
    omega
  · simp [page]

/-- A node takes the room of one node, and is none of the old ones. -/
theorem Kept.kmalloc (kept : Kept heap next nodes)
    (positive : 0 < size.toNat) (small : size.toNat ≤ pageSize)
    (ran : kmalloc heap size = some (address, after)) :
    address ≠ 0 ∧ Pointer.node address ∉ Pointer.head :: nodes ∧
      Kept after (pushFront next .head (.node address))
        (.node address :: nodes) ∧
      room heap size = room after size + 1 := by
  have handed := kmalloc_handed kept.valid ran
  have top := handed.top.ne_null
  have place := handed.address
  have total : after.sTotalSize.toNat =
      heap.sTotalSize.toNat + size.toNat := by
    rw [handed.total, toNat_add_size kept.valid small]
  have fresh : Pointer.node address ∉ Pointer.head :: nodes := by
    intro member
    rcases List.mem_cons.mp member with isHead | old
    · cases isHead
    · rcases kept.old _ old with ⟨other, same, nonNull, below⟩
      cases same
      have sameTop := handed.same nonNull
      omega
  refine ⟨by omega, fresh, ⟨?_, handed.valid, ?_⟩, ?_⟩
  · exact kept.listed.pushFront fresh
  · intro other member
    rcases List.mem_cons.mp member with rfl | old
    · exact ⟨address, rfl, top, by omega⟩
    · rcases kept.old other old with ⟨otherPlace, rfl, nonNull, below⟩
      have sameTop := handed.same nonNull
      exact ⟨otherPlace, rfl, top, by omega⟩
  · have page : HasPage after := .inl top
    have returned : (KernelHeap.kmalloc heap size).isSome := by
      rw [ran]
      rfl
    have had := ((kmalloc_isSome_iff kept.valid).mp returned).1
    have within := handed.valid.within
    have rest : pageSize - heap.sTotalSize.toNat =
        pageSize - after.sTotalSize.toNat + size.toNat := by
      omega
    rw [room, room, if_pos had, if_pos page, rest,
      Nat.add_div_right _ positive]

end Allocation

/-- The heap of a kernel which has not allocated anything. -/
def emptyHeap : Heap := staticHeap fun _ => 0#8

theorem room_emptyHeap (size : Word) :
    room emptyHeap size = pageSize / size.toNat :=
  if_pos hasPage_empty

end MagicalOs.Kernel.HeapLists
