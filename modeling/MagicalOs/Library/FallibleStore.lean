import Mathlib.Logic.Function.Basic

/-!
# A store whose operations may fail

A store keeps a value under each key.  A read may return the value, a write may
replace it, and either may fail instead; a failed operation does nothing.  What
a read returns is then the value of the last write to its key that has
succeeded, whatever has failed in between.
-/

namespace MagicalOs.Library.FallibleStore

variable {Key Value : Type}

inductive Request (Key Value : Type) where
  | read (key : Key)
  | write (key : Key) (value : Value)

inductive Reply (Value : Type) where
  | value (value : Value)
  | done
  | failed

variable [DecidableEq Key]

/-- An operation on a store. -/
inductive Serves :
    (Key → Value) → Request Key Value → Reply Value → (Key → Value) → Prop
    where
  | read {store : Key → Value} (key : Key) :
      Serves store (.read key) (.value (store key)) store
  | write {store : Key → Value} (key : Key) (value : Value) :
      Serves store (.write key value) .done (Function.update store key value)
  | failed {store : Key → Value} (request : Request Key Value) :
      Serves store request .failed store

/-- A sequence of operations, with the replies. -/
inductive ServesAll :
    (Key → Value) → List (Request Key Value × Reply Value) → (Key → Value) →
      Prop where
  | nil (store : Key → Value) : ServesAll store [] store
  | cons {store middle final : Key → Value} {request : Request Key Value}
      {reply : Reply Value} {rest : List (Request Key Value × Reply Value)}
      (first : Serves store request reply middle)
      (later : ServesAll middle rest final) :
      ServesAll store ((request, reply) :: rest) final

/-- What an operation makes of the value under a key. -/
def revise (key : Key) (value : Value) :
    Request Key Value × Reply Value → Value
  | (.write other replacement, .done) =>
      if other = key then replacement else value
  | _ => value

/-- The last value that has been written under a key. -/
def latest (key : Key) (initial : Value)
    (history : List (Request Key Value × Reply Value)) : Value :=
  history.foldl (revise key) initial

section Histories

variable {store middle final : Key → Value} {request : Request Key Value}
  {reply : Reply Value} {before rest : List (Request Key Value × Reply Value)}
  {history : List (Request Key Value × Reply Value)} {key : Key}
  {value : Value}

theorem Serves.revises (serves : Serves store request reply final)
    (key : Key) : final key = revise key (store key) (request, reply) := by
  cases serves with
  | read other => rfl
  | write other value =>
      rw [revise]
      by_cases same : other = key
      · rw [if_pos same, same, Function.update_self]
      · rw [if_neg same, Function.update_of_ne (Ne.symm same)]
  | failed =>
      cases request with
      | read other => rfl
      | write other value => rfl

/-- The store holds what has been written last. -/
theorem ServesAll.final_eq (serves : ServesAll store history final)
    (key : Key) : final key = latest key (store key) history := by
  induction serves with
  | nil store => rfl
  | cons first later hypothesis =>
      rw [hypothesis, first.revises key]
      rfl

theorem ServesAll.split
    (serves : ServesAll store (before ++ (request, reply) :: rest) final) :
    ∃ middle after, ServesAll store before middle ∧
      Serves middle request reply after := by
  induction before generalizing store with
  | nil =>
      cases serves with
      | cons first later => exact ⟨store, _, .nil store, first⟩
  | cons head before hypothesis =>
      cases serves with
      | cons first later =>
          rcases hypothesis later with ⟨middle, after, front, here⟩
          exact ⟨middle, after, .cons first front, here⟩

/-- A read returns what has been written last before it. -/
theorem ServesAll.read_eq
    (serves : ServesAll store (before ++ (.read key, .value value) :: rest)
      final) :
    value = latest key (store key) before := by
  rcases serves.split with ⟨middle, after, front, here⟩
  rw [← front.final_eq key]
  cases here with
  | read => rfl

end Histories

end MagicalOs.Library.FallibleStore
