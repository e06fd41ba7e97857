import Mathlib.Data.Finset.Card
import Mathlib.Logic.Relation

/-!
# Readers that sleep while there is nothing to read

Items arrive at a shared place.  A reader takes the first item, or goes to sleep
when there is none.  An arrival may wake as few as one of the sleepers, and one
that has been woken may find that another reader was faster.

Nobody sleeps in vain nevertheless: as long as a reader is asleep, there are at
least as many readers that have been woken as there are items.
-/

namespace MagicalOs.Library.WaitingReaders

variable {Reader Item : Type}

/-- The items, and the readers that have found none: asleep, or woken since. -/
@[ext]
structure Room (Reader Item : Type) where
  items : List Item
  asleep : Finset Reader
  woken : Finset Reader

/-- Nobody waits, and nothing has arrived. -/
def Room.empty : Room Reader Item where
  items := []
  asleep := ∅
  woken := ∅

/-- Every item has a woken reader of its own, unless all readers are awake. -/
structure Attended (room : Room Reader Item) : Prop where
  apart : Disjoint room.asleep room.woken
  enough : room.asleep.Nonempty → room.items.length ≤ room.woken.card

theorem attended_empty : Attended (Room.empty : Room Reader Item) where
  apart := Finset.disjoint_empty_right _
  enough := fun someone => absurd someone Finset.not_nonempty_empty

section Steps

variable [DecidableEq Reader] {room after : Room Reader Item}

/-- What happens in the room. -/
inductive Step : Room Reader Item → Room Reader Item → Prop where
  | arrives {room : Room Reader Item} {item : List Item}
      {called : Finset Reader} (single : item.length ≤ 1)
      (asleep : called ⊆ room.asleep)
      (answered : room.asleep.Nonempty → called.Nonempty) :
      Step room
        { items := room.items ++ item
          asleep := room.asleep \ called
          woken := room.woken ∪ called }
  | takes {room : Room Reader Item} {item : Item} {rest : List Item}
      (reader : Reader) (first : room.items = item :: rest)
      (awake : reader ∉ room.asleep) :
      Step room
        { room with items := rest, woken := room.woken.erase reader }
  | sleeps {room : Room Reader Item} (reader : Reader)
      (nothing : room.items = []) (awake : reader ∉ room.asleep) :
      Step room
        { room with
          asleep := insert reader room.asleep
          woken := room.woken.erase reader }

theorem Attended.step (attended : Attended room) (taken : Step room after) :
    Attended after := by
  rcases attended with ⟨apart, enough⟩
  cases taken with
  | arrives single asleep answered =>
      constructor
      · apply Finset.disjoint_union_right.mpr
        constructor
        · exact apart.mono_left Finset.sdiff_subset
        · exact Finset.sdiff_disjoint
      · intro someone
        have before : room.asleep.Nonempty := someone.mono Finset.sdiff_subset
        have called := Finset.card_pos.mpr (answered before)
        have served := enough before
        have fresh := (apart.mono_left asleep).symm
        rw [Finset.card_union_of_disjoint fresh, List.length_append]
        exact Nat.add_le_add served (single.trans called)
  | takes reader first =>
      constructor
      · exact apart.mono_right (Finset.erase_subset _ _)
      · intro someone
        have served := enough someone
        rw [first, List.length_cons] at served
        exact (Nat.le_sub_of_add_le served).trans Finset.pred_card_le_card_erase
  | sleeps reader nothing =>
      constructor
      · apply Finset.disjoint_insert_left.mpr
        exact ⟨Finset.notMem_erase _ _,
          apart.mono_right (Finset.erase_subset _ _)⟩
      · intro _
        rw [nothing]
        exact Nat.zero_le _

/-- The invariant holds after any number of steps. -/
theorem attended_of_steps
    (steps : Relation.ReflTransGen Step Room.empty room) : Attended room := by
  induction steps with
  | refl => exact attended_empty
  | tail _ taken attended => exact attended.step taken

end Steps

end MagicalOs.Library.WaitingReaders
