import MagicalOs.Library.ByteMemory
import Mathlib.Data.List.TakeWhile

/-!
# C strings in arrays

A C string is what an array holds in front of its first NUL.  Arrays are lists
of bytes; an access outside them is a fault and ends the computation.
-/

namespace MagicalOs.Library.CString

open MagicalOs.Library.ByteMemory

/-- The string at the beginning of an array. -/
def text (array : List Byte) : List Byte :=
  array.takeWhile (· ≠ 0#8)

/-- The array holds a NUL. -/
def Terminated (array : List Byte) : Prop :=
  0#8 ∈ array

/-- An access outside an array. -/
inductive Fault where
  | load
  | store
  deriving DecidableEq

def store (array : List Byte) (index : Nat) (value : Byte) :
    Except Fault (List Byte) :=
  if index < array.length then .ok (array.set index value) else .error .store

/-! ## Arrays as string, NUL and rest -/

section Text

variable {array string rest : List Byte} {head value : Byte}

@[simp]
theorem text_nil : text [] = [] :=
  rfl

@[simp]
theorem text_zero : text (0#8 :: rest) = [] := by
  simp [text]

theorem text_cons (nonzero : head ≠ 0#8) :
    text (head :: rest) = head :: text rest := by
  simp [text, nonzero]

theorem text_ne_zero (member : value ∈ text array) : value ≠ 0#8 := by
  have holds := List.mem_takeWhile_imp member
  simpa using holds

theorem terminated_cons (nonzero : head ≠ 0#8) :
    Terminated (head :: rest) ↔ Terminated rest := by
  rw [Terminated, List.mem_cons, Terminated]
  constructor
  · intro member
    rcases member with equal | member
    · exact absurd equal.symm nonzero
    · exact member
  · exact .inr

/-- A terminated array begins with its string and a NUL. -/
theorem Terminated.split (terminated : Terminated array) :
    ∃ rest, array = text array ++ 0#8 :: rest := by
  induction array with
  | nil => exact absurd terminated (by simp [Terminated])
  | cons head tail hypothesis =>
      by_cases zero : head = 0#8
      · rw [zero, text_zero]
        exact ⟨tail, rfl⟩
      · rcases hypothesis ((terminated_cons zero).mp terminated) with
          ⟨rest, equal⟩
        refine ⟨rest, ?_⟩
        rw [text_cons zero, List.cons_append, ← equal]

/-- An array that begins with bytes other than NUL and a NUL. -/
theorem text_append (nonzero : ∀ byte ∈ string, byte ≠ 0#8) :
    text (string ++ 0#8 :: rest) = string := by
  induction string with
  | nil => exact text_zero
  | cons head tail hypothesis =>
      have first : head ≠ 0#8 :=
        nonzero head (by simp)
      have later : ∀ byte ∈ tail, byte ≠ 0#8 :=
        fun byte member => nonzero byte (List.mem_cons_of_mem head member)
      rw [List.cons_append, text_cons first, hypothesis later]

theorem terminated_append : Terminated (string ++ 0#8 :: rest) := by
  simp [Terminated]

end Text

/-! ## Faults -/

theorem ok_bind {ε α β : Type} (value : α) (next : α → Except ε β) :
    (Except.ok value >>= next) = next value :=
  rfl

theorem error_bind {ε α β : Type} (fault : ε) (next : α → Except ε β) :
    (Except.error fault >>= next) = Except.error fault :=
  rfl

/-- A sequence of two computations succeeds when both do. -/
theorem bind_eq_ok {ε α β : Type} {first : Except ε α}
    {next : α → Except ε β} {result : β} :
    first >>= next = .ok result ↔
      ∃ value, first = .ok value ∧ next value = .ok result := by
  cases first with
  | error fault => simp [bind, Except.bind]
  | ok value => simp [bind, Except.bind]

/-! ## Stores -/

section Store

variable {array : List Byte} {index : Nat} {value : Byte}

theorem store_inside (inside : index < array.length) :
    store array index value = .ok (array.set index value) := by
  rw [store, if_pos inside]

theorem store_outside (outside : ¬index < array.length) :
    store array index value = .error .store := by
  rw [store, if_neg outside]

end Store

end MagicalOs.Library.CString
