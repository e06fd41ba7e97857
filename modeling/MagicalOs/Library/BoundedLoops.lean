import Mathlib.Init

/-!
# Loops with a bound on their rounds

A loop which may run for ever is a function of the number of rounds it is given,
and returns nothing when they do not suffice.  It settles on a result when it
has this result with every number of rounds from some bound on.
-/

namespace MagicalOs.Library.BoundedLoops

variable {Value Result : Type}

/-- With enough rounds, the loop comes to its end with this result. -/
def Settles (loop : Nat → Option Value) (result : Value) : Prop :=
  ∃ bound, ∀ rounds, bound ≤ rounds → loop rounds = some result

namespace Settles

variable {loop : Nat → Option Value} {value : Value} {result : Result}

theorem ends (settles : Settles loop value) :
    ∃ rounds, loop rounds = some value := by
  rcases settles with ⟨bound, ran⟩
  exact ⟨bound, ran bound (Nat.le_refl bound)⟩

/-- Nothing is repeated. -/
theorem pure (value : Value) : Settles (fun _ => some value) value :=
  ⟨0, fun _ _ => rfl⟩

/-- The first round decides whether there are further ones. -/
theorem round (settles : Settles (fun rounds => loop (rounds + 1)) value) :
    Settles loop value := by
  rcases settles with ⟨bound, ran⟩
  refine ⟨bound + 1, fun rounds enough => ?_⟩
  rcases Nat.exists_eq_add_of_le' (Nat.le_of_add_left_le enough) with
    ⟨fewer, rfl⟩
  exact ran fewer (Nat.le_of_add_le_add_right enough)

/-- Two loops one behind the other, with the same number of rounds. -/
theorem bind {next : Value → Nat → Option Result}
    (first : Settles loop value) (second : Settles (next value) result) :
    Settles (fun rounds => (loop rounds).bind fun value => next value rounds)
      result := by
  rcases first with ⟨bound, firstRan⟩
  rcases second with ⟨later, secondRan⟩
  refine ⟨max bound later, fun rounds enough => ?_⟩
  have ran := firstRan rounds (Nat.le_trans (Nat.le_max_left _ _) enough)
  simp only [ran, Option.bind_some]
  exact secondRan rounds (Nat.le_trans (Nat.le_max_right _ _) enough)

end Settles

end MagicalOs.Library.BoundedLoops
