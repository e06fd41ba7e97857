import MagicalOs.Library.LinkRing
import Mathlib.Logic.Function.Basic

/-!
# Queues of list entries

`queue.c` links entries into a ring with the head of their queue.  The entries
are of any type whose links can be updated; `queue_enq` inserts an entry in
front of the head, which is the end of the queue, and `queue_del` joins the
neighbours of an entry.
-/

namespace MagicalOs.Kernel.ListQueue

open MagicalOs.Library.LinkRing

/-- The fields `next` and `prev` of every `struct list`. -/
structure Links (α : Type*) where
  next : α → α
  prev : α → α

section Operations

variable {α : Type*} [DecidableEq α]

/-- `entry->next = target`. -/
def Links.setNext (links : Links α) (entry target : α) : Links α :=
  { links with next := Function.update links.next entry target }

/-- `entry->prev = target`. -/
def Links.setPrev (links : Links α) (entry target : α) : Links α :=
  { links with prev := Function.update links.prev entry target }

/-- `queue_init`. -/
def queueInit (links : Links α) (head : α) : Links α :=
  let links := links.setNext head head
  links.setPrev head head

/-- `queue_enq`. -/
def queueEnq (links : Links α) (entry head : α) : Links α :=
  let links := links.setPrev entry (links.prev head)
  let links := links.setNext entry head
  let links := links.setNext (links.prev head) entry
  links.setPrev head entry

/-- `queue_del`. -/
def queueDel (links : Links α) (entry : α) : Links α :=
  let links := links.setNext (links.prev entry) (links.next entry)
  links.setPrev (links.next entry) (links.prev entry)

end Operations

/-- The head and the entries, in queue order, form a ring. -/
def Queued {α : Type*} (links : Links α) (head : α) (entries : List α) :
    Prop :=
  Ring links.next links.prev (head :: entries)

section Rings

variable {α : Type*} [DecidableEq α] {links : Links α} {head entry : α}
  {entries : List α}

theorem queueInit_queued (links : Links α) (head : α) :
    Queued (queueInit links head) head [] := by
  apply Ring.singleton
  · simp [queueInit, Links.setNext, Links.setPrev]
  · simp [queueInit, Links.setNext, Links.setPrev]

/-- An entry which is not on the queue becomes its last one. -/
theorem queueEnq_queued (queued : Queued links head entries)
    (fresh : entry ∉ head :: entries) :
    Queued (queueEnq links entry head) head (entries ++ [entry]) := by
  have ring : Ring links.next links.prev (head :: entries) := queued
  have lastMem := List.getLast_mem (List.cons_ne_nil head entries)
  have closed := ring.adjacent_last
  generalize last : (head :: entries).getLast (List.cons_ne_nil head entries) =
    lastEntry at lastMem closed
  have notHead : head ≠ entry := fun equal => fresh (by simp [equal])
  have notLast : lastEntry ≠ entry := fun equal => fresh (equal ▸ lastMem)
  have isLast : lastEntry ∈ (head :: entries).getLast? := by
    rw [← last]
    exact List.getLast_mem_getLast? _
  have isFirst : head ∈ (head :: entries).head? := rfl
  refine ring.append fresh isFirst isLast ?_ ?_ ?_ ?_ ?_ ?_
  · simp [queueEnq, Links.setNext, Links.setPrev, notHead, closed.2,
      Ne.symm notLast]
  · simp [queueEnq, Links.setNext, Links.setPrev, Ne.symm notHead, closed.2]
  · simp [queueEnq, Links.setNext, Links.setPrev, notHead, closed.2]
  · simp [queueEnq, Links.setNext, Links.setPrev]
  · intro other member different
    have old : other ≠ entry := fun equal => fresh (equal ▸ member)
    simp [queueEnq, Links.setNext, Links.setPrev, notHead, closed.2, different,
      old]
  · intro other member different
    have old : other ≠ entry := fun equal => fresh (equal ▸ member)
    simp [queueEnq, Links.setNext, Links.setPrev, different, old]

/-- An entry of the queue is taken out of it. -/
theorem queueDel_queued (queued : Queued links head entries)
    (member : entry ∈ entries) :
    Queued (queueDel links entry) head (entries.erase entry) := by
  rcases List.append_of_mem member with ⟨front, back, rfl⟩
  have ring : Ring links.next links.prev ((head :: front) ++ entry :: back) :=
    queued
  have rotated : Ring links.next links.prev
      (entry :: (back ++ head :: front)) := ring.rotate
  have notFront : entry ∉ front := by
    intro inFront
    have distinct := (List.nodup_cons.mp ring.nodup).2
    exact (List.nodup_append.mp distinct).2.2 entry inFront entry
      (List.mem_cons_self ..) rfl
  have erased : (front ++ entry :: back).erase entry = front ++ back := by
    rw [List.erase_append_right _ notFront, List.erase_cons_head]
  have nonempty : back ++ head :: front ≠ [] :=
    List.append_ne_nil_of_right_ne_nil _ (List.cons_ne_nil head front)
  have others : entry ∉ back ++ head :: front :=
    (List.nodup_cons.mp rotated.nodup).1
  have closed := rotated.adjacent_last
  rw [List.getLast_cons nonempty] at closed
  generalize last : (back ++ head :: front).getLast nonempty = lastEntry
    at closed
  have isLast : lastEntry ∈ (back ++ head :: front).getLast? := by
    rw [← last]
    exact List.getLast_mem_getLast? nonempty
  rcases List.exists_cons_of_ne_nil nonempty with ⟨firstEntry, rest, parts⟩
  have isFirst : firstEntry ∈ (back ++ head :: front).head? := by
    rw [parts]
    exact Option.mem_some_self firstEntry
  have opened : links.next entry = firstEntry := by
    have linked := rotated.linked
    rw [parts] at linked
    exact (List.isChain_cons_cons.mp linked).1.1
  have firstOther : firstEntry ≠ entry := by
    intro same
    apply others
    rw [← same]
    exact List.mem_of_mem_head? isFirst
  have lastOther : lastEntry ≠ entry := by
    intro same
    apply others
    rw [← same]
    exact List.mem_of_getLast? isLast
  have shorter : Ring (queueDel links entry).next (queueDel links entry).prev
      (back ++ head :: front) := by
    apply rotated.tail isFirst isLast
    · simp [queueDel, Links.setNext, Links.setPrev, closed.2, opened]
    · simp [queueDel, Links.setNext, Links.setPrev, closed.2, opened,
        Ne.symm lastOther]
    · intro other _ different
      simp [queueDel, Links.setNext, Links.setPrev, closed.2, different]
    · intro other _ different
      simp [queueDel, Links.setNext, Links.setPrev, closed.2, opened,
        Ne.symm lastOther, different]
  rw [erased]
  exact shorter.rotate

/-- Taking out the entry that was inserted last restores all other links. -/
theorem queueDel_queueEnq (queued : Queued links head entries)
    (fresh : entry ∉ head :: entries) {other : α} (different : other ≠ entry) :
    (queueDel (queueEnq links entry head) entry).next other =
        links.next other ∧
      (queueDel (queueEnq links entry head) entry).prev other =
        links.prev other := by
  have ring : Ring links.next links.prev (head :: entries) := queued
  have notHead : head ≠ entry := by
    rintro rfl
    exact fresh (List.mem_cons_self ..)
  have lastMem := ring.prev_mem (List.mem_cons_self ..)
  have closed := ring.next_prev (List.mem_cons_self ..)
  have notLast : entry ≠ links.prev head := by
    intro same
    rw [← same] at lastMem
    exact fresh lastMem
  constructor
  · by_cases isLast : other = links.prev head
    · simp [queueDel, queueEnq, Links.setNext, Links.setPrev, notHead,
        Ne.symm notHead, notLast, isLast, closed]
    · simp [queueDel, queueEnq, Links.setNext, Links.setPrev, notHead,
        Ne.symm notHead, notLast, isLast, different]
  · by_cases isHead : other = head
    · simp [queueDel, queueEnq, Links.setNext, Links.setPrev, notHead,
        Ne.symm notHead, notLast, isHead]
    · simp [queueDel, queueEnq, Links.setNext, Links.setPrev, notHead,
        Ne.symm notHead, notLast, isHead, different]

end Rings

end MagicalOs.Kernel.ListQueue
