import Mathlib.Data.List.Nodup
import Mathlib.Data.List.TakeWhile

/-!
# Turns around a ring

A ring is given by the list of its members, from its head on.  The member whose
turn it is passes the turn to the one behind it, and the last one to the head.
`turnOrder` lists the members in the order of their next turns; for somebody
who is no member it is the ring itself.

The lemmas say how the order changes when the turn is passed on, when the one
whose turn it is leaves, and when others join at the end of the ring.
-/

namespace MagicalOs.Library.TurnOrder

variable {α : Type} [DecidableEq α]

/-- The other members, in the order of their turns. -/
def turnOrder (ring : List α) (current : α) : List α :=
  (ring.dropWhile (· ≠ current)).tail ++ ring.takeWhile (· ≠ current)

variable {ring front back joined rest : List α} {current first member : α}

theorem turnOrder_of_split (fresh : current ∉ front) :
    turnOrder (front ++ current :: back) current = back ++ front := by
  have others : ∀ other ∈ front, decide (other ≠ current) = true := by
    intro other inFront
    apply decide_eq_true
    rintro rfl
    exact fresh inFront
  rw [turnOrder, List.dropWhile_append_of_pos others,
    List.takeWhile_append_of_pos others]
  simp

theorem turnOrder_of_not_mem (fresh : current ∉ ring) :
    turnOrder ring current = ring := by
  have others : ∀ other ∈ ring, decide (other ≠ current) = true := by
    intro other inRing
    apply decide_eq_true
    rintro rfl
    exact fresh inRing
  rw [turnOrder, List.dropWhile_eq_nil_iff.mpr others,
    List.takeWhile_eq_self_iff.mpr others]
  rfl

theorem mem_turnOrder (inRing : member ∈ ring) (other : member ≠ current) :
    member ∈ turnOrder ring current := by
  by_cases known : current ∈ ring
  · rcases List.eq_append_cons_of_mem known with
      ⟨front, back, rfl, fresh⟩
    rw [turnOrder_of_split fresh]
    simp only [List.mem_append, List.mem_cons] at inRing ⊢
    tauto
  · rw [turnOrder_of_not_mem known]
    exact inRing

/-- Those who join at the end come in between at most once each. -/
theorem idxOf_turnOrder_append (inRing : member ∈ ring)
    (other : member ≠ current) (new : current ∉ joined) :
    (turnOrder (ring ++ joined) current).idxOf member ≤
      (turnOrder ring current).idxOf member + joined.length := by
  by_cases known : current ∈ ring
  · rcases List.eq_append_cons_of_mem known with
      ⟨front, back, rfl, fresh⟩
    rw [List.append_assoc, List.cons_append, turnOrder_of_split fresh,
      turnOrder_of_split fresh]
    by_cases behind : member ∈ back
    · rw [List.append_assoc, List.idxOf_append_of_mem behind,
        List.idxOf_append_of_mem behind]
      exact Nat.le_add_right _ _
    · have inFront : member ∈ front := by
        simp only [List.mem_append, List.mem_cons] at inRing
        tauto
      rw [List.idxOf_append_of_notMem behind, List.append_assoc,
        List.idxOf_append_of_notMem behind]
      have late : (joined ++ front).idxOf member ≤
          joined.length + front.idxOf member := by
        by_cases soon : member ∈ joined
        · rw [List.idxOf_append_of_mem soon]
          have below := List.idxOf_lt_length_of_mem soon
          omega
        · rw [List.idxOf_append_of_notMem soon]
      omega
  · have unknown : current ∉ ring ++ joined := by
      rw [List.mem_append]
      tauto
    rw [turnOrder_of_not_mem known, turnOrder_of_not_mem unknown,
      List.idxOf_append_of_mem inRing]
    exact Nat.le_add_right _ _

/-- When the turn is passed on, everybody else moves up. -/
theorem turnOrder_next (nodup : ring.Nodup)
    (order : turnOrder ring current = first :: rest) :
    ∃ last, turnOrder ring first = rest ++ last := by
  by_cases known : current ∈ ring
  · rcases List.eq_append_cons_of_mem known with
      ⟨front, back, rfl, fresh⟩
    rw [turnOrder_of_split fresh] at order
    cases back with
    | nil =>
        rw [List.nil_append] at order
        subst order
        have head : turnOrder ([] ++ first :: (rest ++ [current])) first =
            (rest ++ [current]) ++ [] := turnOrder_of_split List.not_mem_nil
        exact ⟨[current], by simpa using head⟩
    | cons second back =>
        rw [List.cons_append] at order
        cases order
        have unknown : first ∉ front ++ [current] := by
          rw [List.append_cons] at nodup
          have apart := (List.nodup_append.mp nodup).2.2
          intro inFront
          exact apart first inFront first List.mem_cons_self rfl
        refine ⟨[current], ?_⟩
        rw [List.append_cons, turnOrder_of_split unknown, List.append_assoc]
  · rw [turnOrder_of_not_mem known] at order
    subst order
    have head : turnOrder ([] ++ first :: rest) first = rest ++ [] :=
      turnOrder_of_split List.not_mem_nil
    exact ⟨[], by simpa using head⟩

/-- When the one whose turn it was leaves, everybody else moves up. -/
theorem turnOrder_leave (nodup : (front ++ current :: back).Nodup)
    (order : turnOrder (front ++ current :: back) current = first :: rest) :
    turnOrder (front ++ back) first = rest := by
  have fresh : current ∉ front :=
    fun inFront => (List.nodup_append.mp nodup).2.2 current inFront current
      List.mem_cons_self rfl
  rw [turnOrder_of_split fresh] at order
  cases back with
  | nil =>
      rw [List.nil_append] at order
      subst order
      have head : turnOrder ([] ++ first :: rest) first = rest ++ [] :=
        turnOrder_of_split List.not_mem_nil
      simpa using head
  | cons second back =>
      rw [List.cons_append] at order
      cases order
      have unknown : first ∉ front := by
        intro inFront
        exact (List.nodup_append.mp nodup).2.2 first inFront first
          (by simp) rfl
      exact turnOrder_of_split unknown

end MagicalOs.Library.TurnOrder
