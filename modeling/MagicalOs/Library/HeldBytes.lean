import MagicalOs.Library.ByteMemory

/-!
# Byte sequences in memory

`Holds` says that a sequence of bytes lies in the memory from an address on,
and `HoldsString` that it lies there as a C string: none of the bytes is a NUL,
and a NUL follows them.
-/

namespace MagicalOs.Library.HeldBytes

open MagicalOs.Library.ByteMemory
open MagicalOs.Library.ByteMemory.Memory

/-- The bytes lie in the memory, from `address` on. -/
def Holds (memory : Memory) (address : Nat) : List Byte → Prop
  | [] => True
  | byte :: rest => memory address = byte ∧ Holds memory (address + 1) rest

/-- The bytes lie in the memory as a C string. -/
structure HoldsString (memory : Memory) (address : Nat)
    (string : List Byte) : Prop where
  nonzero : ∀ byte ∈ string, byte ≠ 0#8
  bytes : Holds memory address string
  ends : memory (address + string.length) = 0#8

section Holds

variable {memory : Memory} {address : Nat} {bytes left right : List Byte}

@[simp]
theorem holds_nil : Holds memory address [] :=
  trivial

@[simp]
theorem holds_cons {byte : Byte} {rest : List Byte} :
    Holds memory address (byte :: rest) ↔
      memory address = byte ∧ Holds memory (address + 1) rest :=
  Iff.rfl

/-- Two sequences lie in the memory one behind the other. -/
theorem holds_append :
    Holds memory address (left ++ right) ↔
      Holds memory address left ∧
        Holds memory (address + left.length) right := by
  induction left generalizing address with
  | nil => simp
  | cons byte rest induction =>
      have position :
          address + (byte :: rest).length = address + 1 + rest.length := by
        rw [List.length_cons]
        omega
      rw [List.cons_append, holds_cons, holds_cons, induction, position,
        and_assoc]

theorem holds_iff_getElem :
    Holds memory address bytes ↔
      ∀ index (inside : index < bytes.length),
        memory (address + index) = bytes[index] := by
  induction bytes generalizing address with
  | nil => simp
  | cons byte rest induction =>
      rw [holds_cons, induction]
      constructor
      · rintro ⟨first, later⟩ index inside
        cases index with
        | zero => exact first
        | succ index =>
            have value := later index (Nat.lt_of_succ_lt_succ inside)
            rw [show address + (index + 1) = address + 1 + index by omega]
            exact value
      · intro all
        constructor
        · exact all 0 (by simp)
        · intro index inside
          have value := all (index + 1) (Nat.succ_lt_succ inside)
          rw [show address + 1 + index = address + (index + 1) by omega]
          exact value

theorem Holds.getElem (holds : Holds memory address bytes) {index : Nat}
    (inside : index < bytes.length) :
    memory (address + index) = bytes[index] :=
  holds_iff_getElem.mp holds index inside

/-- Bytes which have been stored lie in the memory. -/
theorem holds_storeBytes (memory : Memory) (address : Nat)
    (bytes : List Byte) :
    Holds (memory.storeBytes address bytes) address bytes := by
  induction bytes generalizing memory address with
  | nil => trivial
  | cons byte rest induction =>
      constructor
      · rw [Memory.storeBytes,
          Memory.storeBytes_agreeOutside _ (address + 1) rest address
            (by omega), Memory.store8_self]
      · exact induction (memory.store8 address byte) (address + 1)

end Holds

/-- A string and the NUL behind it make a C string. -/
theorem holdsString_of_holds {memory : Memory} {address : Nat}
    {string : List Byte} (nonzero : ∀ byte ∈ string, byte ≠ 0#8)
    (holds : Holds memory address (string ++ [0#8])) :
    HoldsString memory address string := by
  rcases holds_append.mp holds with ⟨bytes, ends⟩
  exact ⟨nonzero, bytes, ends.1⟩

namespace HoldsString

variable {memory : Memory} {address : Nat} {byte : Byte}
  {string rest : List Byte}

/-- A C string begins with a byte other than NUL, or it is empty. -/
theorem tail (holds : HoldsString memory address (byte :: rest)) :
    HoldsString memory (address + 1) rest where
  nonzero := fun other member =>
    holds.nonzero other (List.mem_cons_of_mem byte member)
  bytes := holds.bytes.2
  ends := by
    have ends := holds.ends
    rw [List.length_cons] at ends
    rw [show address + 1 + rest.length = address + (rest.length + 1) by
      omega]
    exact ends

theorem head (holds : HoldsString memory address (byte :: rest)) :
    memory address = byte ∧ byte ≠ 0#8 :=
  ⟨holds.bytes.1, holds.nonzero byte (by simp)⟩

theorem nil (holds : HoldsString memory address []) : memory address = 0#8 :=
  holds.ends

/-- A C string lies in its own bytes only. -/
theorem of_agreeOn {left right : Memory}
    (holds : HoldsString left address string)
    (agree : AgreeOn left right address (string.length + 1)) :
    HoldsString right address string where
  nonzero := holds.nonzero
  bytes := by
    apply holds_iff_getElem.mpr
    intro index inside
    have same := agree (address + index) (Nat.le_add_right ..) (by omega)
    rw [← same]
    exact holds.bytes.getElem inside
  ends := by
    have same :=
      agree (address + string.length) (Nat.le_add_right ..) (Nat.lt_succ_self _)
    rw [← same]
    exact holds.ends

end HoldsString

end MagicalOs.Library.HeldBytes
