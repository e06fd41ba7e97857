import MagicalOs.Kernel.ListQueue
import MagicalOs.Library.HeadedRing

/-!
# Runs of a queue

A queue is initialized and then changed by `queue_enq` and `queue_del`, in any
order.  On the side of lists an entry is appended or erased.  The traversals
stop at the head, as those of `queue_dump` and `fs_open` do; they end because
the links of both directions stay inverse to each other around the head.
-/

namespace MagicalOs.Kernel.QueueTraversals

open MagicalOs.Library.LinkRing
open MagicalOs.Library.SentinelList
open MagicalOs.Library.HeadedRing
open MagicalOs.Kernel.ListQueue

variable {α : Type*} [DecidableEq α]

/-- A change of a queue. -/
inductive Change (α : Type*) where
  | enq (entry : α)
  | del (entry : α)
  deriving DecidableEq

namespace Change

/-- What a change does to the links. -/
def run (head : α) : Change α → Links α → Links α
  | enq entry, links => queueEnq links entry head
  | del entry, links => queueDel links entry

/-- What a change does to the live entries, in the order of their insertion. -/
def apply : Change α → List α → List α
  | enq entry, live => live ++ [entry]
  | del entry, live => live.erase entry

/-- Only other entries are inserted, and only live ones deleted. -/
def Allowed (head : α) : Change α → List α → Prop
  | enq entry, live => entry ∉ head :: live
  | del entry, live => entry ∈ live

instance (head : α) : (change : Change α) → (live : List α) →
    Decidable (change.Allowed head live)
  | enq entry, live => inferInstanceAs (Decidable (entry ∉ head :: live))
  | del entry, live => inferInstanceAs (Decidable (entry ∈ live))

end Change

/-- The links after a sequence of changes. -/
def runAll (head : α) (changes : List (Change α)) (links : Links α) :
    Links α :=
  changes.foldl (fun links change => change.run head links) links

/-- The live entries after a sequence of changes. -/
def liveAfter (changes : List (Change α)) (live : List α) : List α :=
  changes.foldl (fun live change => change.apply live) live

/-- Every change is allowed when it is made. -/
def AllAllowed (head : α) : List (Change α) → List α → Prop
  | [], _ => True
  | change :: changes, live =>
      change.Allowed head live ∧ AllAllowed head changes (change.apply live)

/-- `entry = head->next; entry != head; entry = entry->next`. -/
def forward (links : Links α) (head : α) (iterations : Nat) :
    Option (List α) :=
  traverse links.next head iterations (links.next head)

/-- The same along the backward links. -/
def backward (links : Links α) (head : α) (iterations : Nat) :
    Option (List α) :=
  traverse links.prev head iterations (links.prev head)

section Runs

variable {links : Links α} {head : α} {live : List α}
  {changes : List (Change α)}

/-- A change keeps the ring of the head and the live entries. -/
theorem Change.run_queued {change : Change α}
    (queued : Queued links head live) (allowed : change.Allowed head live) :
    Queued (change.run head links) head (change.apply live) := by
  cases change with
  | enq entry => exact queueEnq_queued queued allowed
  | del entry => exact queueDel_queued queued allowed

theorem runAll_queued (queued : Queued links head live)
    (allowed : AllAllowed head changes live) :
    Queued (runAll head changes links) head (liveAfter changes live) := by
  induction changes generalizing links live with
  | nil => exact queued
  | cons change changes hypothesis =>
      exact hypothesis (Change.run_queued queued allowed.1) allowed.2

theorem forward_of_queued (queued : Queued links head live) {iterations : Nat}
    (enough : live.length < iterations) :
    forward links head iterations = some live :=
  (listed_of_ring queued).traverse enough

/-- Backwards, the head leads to the last entry. -/
theorem backward_of_queued (queued : Queued links head live)
    {iterations : Nat} (enough : live.length < iterations) :
    backward links head iterations = some live.reverse := by
  have ring : Ring links.next links.prev (head :: live) := queued
  have reversed : Ring links.prev links.next (live.reverse ++ [head]) := by
    rw [← List.reverse_cons]
    exact ring.reverse
  have turned : Ring links.prev links.next (head :: live.reverse) :=
    reversed.rotate
  apply (listed_of_ring turned).traverse
  rw [List.length_reverse]
  exact enough

/-- The queue holds the live entries, and the last insertion can be undone. -/
structure HoldsLive (links : Links α) (head : α) (live : List α) : Prop where
  forward : ∀ iterations, live.length < iterations →
    forward links head iterations = some live
  backward : ∀ iterations, live.length < iterations →
    backward links head iterations = some live.reverse
  undo : ∀ entry, entry ∉ head :: live → ∀ node, node ∈ head :: live →
    (queueDel (queueEnq links entry head) entry).next node = links.next node ∧
      (queueDel (queueEnq links entry head) entry).prev node =
        links.prev node

/-- Every run from `queue_init` on holds its live entries. -/
theorem runAll_holdsLive (links : Links α) (head : α)
    (allowed : AllAllowed head changes []) :
    HoldsLive (runAll head changes (queueInit links head)) head
      (liveAfter changes []) := by
  have queued := runAll_queued (queueInit_queued links head) allowed
  constructor
  · intro iterations enough
    exact forward_of_queued queued enough
  · intro iterations enough
    exact backward_of_queued queued enough
  · intro entry fresh node member
    apply queueDel_queueEnq queued fresh
    rintro rfl
    exact fresh member

/-- Two entries, of which the first one is deleted and inserted again. -/
theorem runAll_holdsLive_moved :
    let links : Links Nat := { next := fun _ => 0, prev := fun _ => 0 }
    HoldsLive (runAll 0 [.enq 1, .enq 2, .del 1, .enq 1] (queueInit links 0)) 0
      [2, 1] :=
  runAll_holdsLive _ 0 ⟨by decide, by decide, by decide, by decide, trivial⟩

end Runs

end MagicalOs.Kernel.QueueTraversals
