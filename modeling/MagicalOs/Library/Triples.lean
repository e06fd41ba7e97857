import Mathlib.Init

/-!
# Pre- and postconditions of stateful programs

A triple says that a program, run from a state with the precondition, ends in a
state with the postcondition.  The rules follow the structure of `do` blocks;
a program that loops is treated by induction on its rounds.
-/

namespace MagicalOs.Library.Triples

variable {State Value Result : Type}

/-- From `pre` the program returns a value and a state with `post`. -/
def Triple (pre : State → Prop) (program : StateM State Value)
    (post : Value → State → Prop) : Prop :=
  ∀ state, pre state → post (program.run state).1 (program.run state).2

namespace Triple

variable {pre weaker : State → Prop} {program : StateM State Value}
  {post stronger : Value → State → Prop} {final : Result → State → Prop}

/-- A program that returns a value does nothing to the state. -/
theorem pure {value : Value} (holds : ∀ state, pre state → post value state) :
    Triple pre (Pure.pure value) post :=
  holds

/-- Nothing has to be known of a state. -/
theorem any (program : StateM State Value) :
    Triple pre program fun _ _ => True :=
  fun _ _ => trivial

/-- The postcondition of the first program is handed to the second. -/
theorem bind {next : Value → StateM State Result}
    (first : Triple pre program post)
    (second : ∀ value, Triple (post value) (next value) final) :
    Triple pre (program >>= next) final := by
  intro state holds
  exact second _ _ (first state holds)

/-- A sequence of two programs of which the first returns no value. -/
theorem seq {unit : StateM State Unit} {next : StateM State Result}
    (between : State → Prop) (first : Triple pre unit fun _ => between)
    (second : Triple between next final) :
    Triple pre (unit >>= fun _ => next) final :=
  bind first fun _ => second

/-- The rule of consequence. -/
theorem weaken (triple : Triple weaker program stronger)
    (before : ∀ state, pre state → weaker state)
    (after : ∀ value state, stronger value state → post value state) :
    Triple pre program post := by
  intro state holds
  exact after _ _ (triple state (before state holds))

/-- Two postconditions hold together. -/
theorem both (first : Triple pre program post)
    (second : Triple pre program stronger) :
    Triple pre program fun value state =>
      post value state ∧ stronger value state :=
  fun state holds => ⟨first state holds, second state holds⟩

/-- A fact that does not depend on the state can be taken out. -/
theorem assume {fact : Prop} (triple : fact → Triple pre program post) :
    Triple (fun state => fact ∧ pre state) program post := by
  intro state holds
  exact triple holds.1 state holds.2

theorem ite {condition : Prop} [Decidable condition]
    {left right : StateM State Value}
    (whenTrue : condition → Triple pre left post)
    (whenFalse : ¬condition → Triple pre right post) :
    Triple pre (if condition then left else right) post := by
  by_cases holds : condition
  · rw [if_pos holds]
    exact whenTrue holds
  · rw [if_neg holds]
    exact whenFalse holds

end Triple

end MagicalOs.Library.Triples
