import Mathlib.Algebra.Group.Nat.Defs
import Mathlib.Data.Nat.Basic

/-!
# Byte-addressed memory

A memory assigns a byte to every address.  Half words, words and pointers are
little-endian groups of bytes.  Besides the laws of loads after stores, the
module provides the notion in which a routine is framed: `AgreeOutside` says
that two memories differ at most inside one block of addresses, and
`AgreeOn` that they hold the same bytes in a block.
-/

namespace MagicalOs.Library.ByteMemory

abbrev Byte := BitVec 8
abbrev Half := BitVec 16
abbrev Word := BitVec 32

/-- The content of a byte-addressed memory; the null pointer is zero. -/
abbrev Memory := Nat → Byte

namespace Memory

def load16 (memory : Memory) (address : Nat) : Half :=
  memory (address + 1) ++ memory address

def load32 (memory : Memory) (address : Nat) : Word :=
  load16 memory (address + 2) ++ load16 memory address

def loadPtr (memory : Memory) (address : Nat) : Nat :=
  (load32 memory address).toNat

def store8 (memory : Memory) (address : Nat) (value : Byte) : Memory :=
  fun other => if other = address then value else memory other

def store16 (memory : Memory) (address : Nat) (value : Half) : Memory :=
  store8 (store8 memory address (value.extractLsb' 0 8))
    (address + 1) (value.extractLsb' 8 8)

def store32 (memory : Memory) (address : Nat) (value : Word) : Memory :=
  store16 (store16 memory address (value.extractLsb' 0 16))
    (address + 2) (value.extractLsb' 16 16)

def storePtr (memory : Memory) (address pointer : Nat) : Memory :=
  store32 memory address (BitVec.ofNat 32 pointer)

/-- Store consecutive bytes, in ascending order of their addresses. -/
def storeBytes (memory : Memory) (address : Nat) : List Byte → Memory
  | [] => memory
  | byte :: rest => storeBytes (store8 memory address byte) (address + 1) rest

/-! ## Blocks of addresses -/

/-- The two memories hold the same bytes in `[base, base + size)`. -/
def AgreeOn (left right : Memory) (base : Nat) (size : Nat) : Prop :=
  ∀ address, base ≤ address → address < base + size →
    left address = right address

/-- The two memories differ at most in `[base, base + size)`. -/
def AgreeOutside (left right : Memory) (base : Nat) (size : Nat) : Prop :=
  ∀ address, address < base ∨ base + size ≤ address →
    left address = right address

variable {memory left right : Memory} {address base other : Nat}

theorem AgreeOn.trans {middle : Memory} {size : Nat}
    (first : AgreeOn left middle base size)
    (second : AgreeOn middle right base size) :
    AgreeOn left right base size :=
  fun address above below =>
    (first address above below).trans (second address above below)

theorem AgreeOn.sub {size : Nat}
    (agree : AgreeOn left right base size) (other otherSize : Nat)
    (above : base ≤ other) (below : other + otherSize ≤ base + size) :
    AgreeOn left right other otherSize :=
  fun address lower upper => agree address (by omega) (by omega)

/-- Memories which differ only in one block agree on every disjoint block. -/
theorem AgreeOutside.agreeOn {size : Nat}
    (agree : AgreeOutside left right base size) (other otherSize : Nat)
    (disjoint : other + otherSize ≤ base ∨ base + size ≤ other) :
    AgreeOn left right other otherSize :=
  fun address lower upper => agree address (by omega)

theorem AgreeOutside.trans {middle : Memory} {size : Nat}
    (first : AgreeOutside left middle base size)
    (second : AgreeOutside middle right base size) :
    AgreeOutside left right base size :=
  fun address outside =>
    (first address outside).trans (second address outside)

theorem AgreeOutside.mono {size largerSize : Nat}
    (agree : AgreeOutside left right base size)
    (lower : other ≤ base) (upper : base + size ≤ other + largerSize) :
    AgreeOutside left right other largerSize :=
  fun address outside => agree address (by omega)

/-! ## Loads depend on their own bytes only -/

theorem AgreeOn.load8 (agree : AgreeOn left right address 1) :
    left address = right address :=
  agree address (Nat.le_refl _) (Nat.lt_succ_self address)

theorem AgreeOn.load16 (agree : AgreeOn left right address 2) :
    left.load16 address = right.load16 address := by
  rw [Memory.load16, Memory.load16,
    agree address (by omega) (by omega),
    agree (address + 1) (by omega) (by omega)]

theorem AgreeOn.load32 (agree : AgreeOn left right address 4) :
    left.load32 address = right.load32 address := by
  rw [Memory.load32, Memory.load32,
    (agree.sub address 2 (by omega) (by omega)).load16,
    (agree.sub (address + 2) 2 (by omega) (by omega)).load16]

theorem AgreeOn.loadPtr (agree : AgreeOn left right address 4) :
    left.loadPtr address = right.loadPtr address :=
  congrArg BitVec.toNat agree.load32

/-- The first byte of a word is its low byte. -/
theorem load8_eq_setWidth (memory : Memory) (address : Nat) :
    memory address = (memory.load32 address).setWidth 8 := by
  rw [Memory.load32, Memory.load16, Memory.load16]
  apply BitVec.eq_of_getLsbD_eq
  intro index inByte
  rw [BitVec.getLsbD_setWidth, BitVec.getLsbD_append, if_pos (by omega),
    BitVec.getLsbD_append, if_pos inByte]
  simp [inByte]

/-- A word holds its four bytes, the lowest first. -/
theorem load8_eq_extractLsb' (memory : Memory) (address offset : Nat)
    (inWord : offset < 4) :
    memory (address + offset) =
      (memory.load32 address).extractLsb' (8 * offset) 8 := by
  rw [Memory.load32, Memory.load16, Memory.load16]
  apply BitVec.eq_of_getLsbD_eq
  intro index inByte
  rw [BitVec.getLsbD_extractLsb']
  have which : offset = 0 ∨ offset = 1 ∨ offset = 2 ∨ offset = 3 := by omega
  rcases which with rfl | rfl | rfl | rfl
  · rw [BitVec.getLsbD_append, if_pos (by omega), BitVec.getLsbD_append,
      if_pos (by omega)]
    simp [inByte]
  · rw [BitVec.getLsbD_append, if_pos (by omega), BitVec.getLsbD_append,
      if_neg (by omega)]
    simp [inByte]
  · rw [BitVec.getLsbD_append, if_neg (by omega), BitVec.getLsbD_append,
      if_pos (by omega)]
    simp [inByte]
  · rw [BitVec.getLsbD_append, if_neg (by omega), BitVec.getLsbD_append,
      if_neg (by omega)]
    simp [inByte, Nat.sub_sub, Nat.add_assoc]

/-! ## A store changes its own bytes only -/

theorem store8_agreeOutside (memory : Memory) (address : Nat) (value : Byte) :
    AgreeOutside (memory.store8 address value) memory address 1 := by
  intro other outside
  exact if_neg (by omega)

theorem store16_agreeOutside
    (memory : Memory) (address : Nat) (value : Half) :
    AgreeOutside (memory.store16 address value) memory address 2 :=
  ((store8_agreeOutside _ (address + 1) _).mono
      (by omega) (by omega)).trans
    ((store8_agreeOutside memory address _).mono
      (Nat.le_refl _) (by omega))

theorem store32_agreeOutside
    (memory : Memory) (address : Nat) (value : Word) :
    AgreeOutside (memory.store32 address value) memory address 4 :=
  ((store16_agreeOutside _ (address + 2) _).mono
      (by omega) (by omega)).trans
    ((store16_agreeOutside memory address _).mono
      (Nat.le_refl _) (by omega))

theorem storePtr_agreeOutside
    (memory : Memory) (address pointer : Nat) :
    AgreeOutside (memory.storePtr address pointer) memory address 4 :=
  store32_agreeOutside memory address _

theorem storeBytes_agreeOutside
    (memory : Memory) (address : Nat) (bytes : List Byte) :
    AgreeOutside (memory.storeBytes address bytes) memory address
      bytes.length := by
  induction bytes generalizing memory address with
  | nil => exact fun _ _ => rfl
  | cons byte rest induction =>
      rw [storeBytes, List.length_cons]
      exact ((induction _ (address + 1)).mono (by omega) (by omega)).trans
        ((store8_agreeOutside memory address byte).mono
          (by omega) (by omega))

/-! ## Loads after stores -/

private theorem half_of_bytes (value : Half) :
    value.extractLsb' 8 8 ++ value.extractLsb' 0 8 = value := by
  apply BitVec.eq_of_getLsbD_eq
  intro index inHalf
  rw [BitVec.getLsbD_append]
  by_cases low : index < 8
  · simp [low]
  · have shifted : 8 + (index - 8) = index := by omega
    simp [low, shifted, show index - 8 < 8 by omega]

private theorem word_of_halves (value : Word) :
    value.extractLsb' 16 16 ++ value.extractLsb' 0 16 = value := by
  apply BitVec.eq_of_getLsbD_eq
  intro index inWord
  rw [BitVec.getLsbD_append]
  by_cases low : index < 16
  · simp [low]
  · have shifted : 16 + (index - 16) = index := by omega
    simp [low, shifted, show index - 16 < 16 by omega]

@[simp]
theorem store8_self (memory : Memory) (address : Nat) (value : Byte) :
    memory.store8 address value address = value :=
  if_pos rfl

@[simp]
theorem load16_store16_self
    (memory : Memory) (address : Nat) (value : Half) :
    (memory.store16 address value).load16 address = value := by
  have low :
      (memory.store16 address value) address = value.extractLsb' 0 8 := by
    rw [store16, store8_agreeOutside _ _ _ address (by omega), store8_self]
  have high :
      (memory.store16 address value) (address + 1) =
        value.extractLsb' 8 8 := by
    rw [store16, store8_self]
  rw [load16, low, high, half_of_bytes]

@[simp]
theorem load32_store32_self
    (memory : Memory) (address : Nat) (value : Word) :
    (memory.store32 address value).load32 address = value := by
  have low :
      (memory.store32 address value).load16 address =
        value.extractLsb' 0 16 := by
    have untouched :=
      (store16_agreeOutside
        (memory.store16 address (value.extractLsb' 0 16))
        (address + 2) (value.extractLsb' 16 16)).agreeOn
        address 2 (by omega)
    rw [store32, untouched.load16, load16_store16_self]
  have high :
      (memory.store32 address value).load16 (address + 2) =
        value.extractLsb' 16 16 := by
    rw [store32, load16_store16_self]
  rw [load32, low, high, word_of_halves]

/-- A pointer below `2 ^ 32` reads back as itself. -/
theorem loadPtr_storePtr_self
    (memory : Memory) (address : Nat) {pointer : Nat}
    (small : pointer < 2 ^ 32) :
    (memory.storePtr address pointer).loadPtr address = pointer := by
  rw [loadPtr, storePtr, load32_store32_self, BitVec.toNat_ofNat,
    Nat.mod_eq_of_lt small]

theorem loadPtr_storePtr_of_disjoint
    (memory : Memory) (pointer : Nat)
    (disjoint : other + 4 ≤ address ∨ address + 4 ≤ other) :
    (memory.storePtr address pointer).loadPtr other =
      memory.loadPtr other :=
  ((storePtr_agreeOutside memory address pointer).agreeOn other 4
    disjoint).loadPtr

/-! ## The same stores to two memories -/

/-- The two memories hold the same byte at every address of a set. -/
def AgreeAt (left right : Memory) (inSet : Nat → Prop) : Prop :=
  ∀ address, inSet address → left address = right address

namespace AgreeAt

variable {inSet smaller : Nat → Prop}

theorem mono (agree : AgreeAt left right inSet)
    (subset : ∀ address, smaller address → inSet address) :
    AgreeAt left right smaller :=
  fun address member => agree address (subset address member)

/-- After the same store, they also agree where it was made. -/
theorem store8 (agree : AgreeAt left right inSet) (base : Nat)
    (value : Byte) :
    AgreeAt (left.store8 base value) (right.store8 base value)
      fun address =>
        inSet address ∨ (base ≤ address ∧ address < base + 1) := by
  rintro address (member | here)
  · rw [Memory.store8, Memory.store8, agree address member]
  · have same : address = base := by omega
    rw [same, store8_self, store8_self]

theorem store16 (agree : AgreeAt left right inSet) (base : Nat)
    (value : Half) :
    AgreeAt (left.store16 base value) (right.store16 base value)
      fun address =>
        inSet address ∨ (base ≤ address ∧ address < base + 2) := by
  apply ((agree.store8 base _).store8 (base + 1) _).mono
  rintro address (member | here)
  · exact .inl (.inl member)
  · by_cases low : address < base + 1
    · exact .inl (.inr ⟨here.1, low⟩)
    · exact .inr ⟨by omega, by omega⟩

theorem store32 (agree : AgreeAt left right inSet) (base : Nat)
    (value : Word) :
    AgreeAt (left.store32 base value) (right.store32 base value)
      fun address =>
        inSet address ∨ (base ≤ address ∧ address < base + 4) := by
  apply ((agree.store16 base _).store16 (base + 2) _).mono
  rintro address (member | here)
  · exact .inl (.inl member)
  · by_cases low : address < base + 2
    · exact .inl (.inr ⟨here.1, low⟩)
    · exact .inr ⟨by omega, by omega⟩

theorem storePtr (agree : AgreeAt left right inSet) (base pointer : Nat) :
    AgreeAt (left.storePtr base pointer) (right.storePtr base pointer)
      fun address =>
        inSet address ∨ (base ≤ address ∧ address < base + 4) :=
  agree.store32 base _

theorem storeBytes (agree : AgreeAt left right inSet) (base : Nat)
    (bytes : List Byte) :
    AgreeAt (left.storeBytes base bytes) (right.storeBytes base bytes)
      fun address =>
        inSet address ∨
          (base ≤ address ∧ address < base + bytes.length) := by
  induction bytes generalizing left right base inSet with
  | nil =>
      rintro address (member | here)
      · exact agree address member
      · rw [List.length_nil] at here
        omega
  | cons byte rest induction =>
      apply (induction (agree.store8 base byte) (base + 1)).mono
      rintro address (member | here)
      · exact .inl (.inl member)
      · rw [List.length_cons] at here
        by_cases low : address < base + 1
        · exact .inl (.inr ⟨here.1, low⟩)
        · exact .inr ⟨by omega, by omega⟩

end AgreeAt

end Memory

end MagicalOs.Library.ByteMemory
