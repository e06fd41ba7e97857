import Mathlib.Data.List.Basic

/-!
# Properly nested sequences

A sequence of entries and exits is properly nested if every entry has an exit
of the same name behind it, with a properly nested sequence in between.  No name
is entered again inside of itself.  The depth of a sequence is the number of
entries that have not been left; in every prefix of a properly nested sequence
it is not negative.
-/

namespace MagicalOs.Library.Nesting

variable {α : Type*}

/-- An entry or an exit. -/
inductive Mark (α : Type*) where
  | enter (name : α)
  | leave (name : α)
  deriving DecidableEq

/-- The sequence is properly nested, and enters none of the outer names. -/
inductive Nested : (outer : List α) → List (Mark α) → Prop where
  | nil {outer : List α} : Nested outer []
  | pair {outer : List α} {name : α} {inner rest : List (Mark α)}
      (fresh : name ∉ outer) (inside : Nested (name :: outer) inner)
      (behind : Nested outer rest) :
      Nested outer (.enter name :: (inner ++ .leave name :: rest))

/-- The number of entries that have not been left. -/
def depth : List (Mark α) → Int
  | [] => 0
  | .enter _ :: rest => 1 + depth rest
  | .leave _ :: rest => depth rest - 1

section Depth

variable {outer : List α} {marks : List (Mark α)}

theorem depth_append (left right : List (Mark α)) :
    depth (left ++ right) = depth left + depth right := by
  induction left with
  | nil => exact (Int.zero_add _).symm
  | cons mark left hypothesis =>
      cases mark with
      | enter name =>
          rw [List.cons_append, depth, depth, hypothesis, Int.add_assoc]
      | leave name =>
          rw [List.cons_append, depth, depth, hypothesis]
          omega

theorem Nested.depth_eq (nested : Nested outer marks) : depth marks = 0 := by
  induction nested with
  | nil => rfl
  | pair fresh inside behind innerDepth restDepth =>
      rw [depth, depth_append, depth, innerDepth, restDepth]
      rfl

/-- The prefixes of a properly nested sequence that begins with a pair. -/
theorem prefix_pair_cases {name : α} {inner rest before : List (Mark α)}
    (isPrefix : before <+: .enter name :: (inner ++ .leave name :: rest)) :
    before = [] ∨
      (∃ part, part <+: inner ∧ before = .enter name :: part) ∨
      ∃ part, part <+: rest ∧
        before = .enter name :: (inner ++ .leave name :: part) := by
  rcases List.prefix_cons_iff.mp isPrefix with rfl | ⟨tail, rfl, later⟩
  · exact .inl rfl
  rcases List.prefix_or_prefix_of_prefix later (List.prefix_append inner _)
    with inInner | beyond
  · exact .inr (.inl ⟨tail, inInner, rfl⟩)
  rcases beyond with ⟨exit, rfl⟩
  have leaving := (List.prefix_append_right_inj inner).mp later
  rcases List.prefix_cons_iff.mp leaving with rfl | ⟨part, rfl, inRest⟩
  · refine .inr (.inl ⟨inner, List.prefix_refl inner, ?_⟩)
    rw [List.append_nil]
  · exact .inr (.inr ⟨part, inRest, rfl⟩)

/-- Nothing is left that has not been entered. -/
theorem Nested.depth_nonneg (nested : Nested outer marks)
    {before : List (Mark α)} (isPrefix : before <+: marks) :
    0 ≤ depth before := by
  induction nested generalizing before with
  | nil =>
      rw [List.prefix_nil.mp isPrefix]
      exact Int.le_refl 0
  | pair fresh inside behind innerDepth restDepth =>
      rcases prefix_pair_cases isPrefix with
        rfl | ⟨part, inInner, rfl⟩ | ⟨part, inRest, rfl⟩
      · exact Int.le_refl 0
      · have nonneg := innerDepth inInner
        rw [depth]
        omega
      · have nonneg := restDepth inRest
        rw [depth, depth_append, depth, inside.depth_eq]
        omega

end Depth

end MagicalOs.Library.Nesting
