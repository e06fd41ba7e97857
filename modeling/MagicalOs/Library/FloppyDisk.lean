import MagicalOs.Library.ByteMemory

/-!
# Reading a disk by cylinders, heads and sectors

A disk is a sequence of bytes; its geometry says where the sectors of a track
lie in it.  Firmware reads consecutive sectors of one track into memory, and
answers with a flag: it has read them, or it has failed and the block in memory
holds anything.  The reader repeats a failed call until it succeeds.

Reads are chained when each continues where the one before it ends, on the disk
and in memory.  A chain copies one stretch of the disk, however often the single
reads fail before they succeed.
-/

namespace MagicalOs.Library.FloppyDisk

open MagicalOs.Library.ByteMemory

/-- The size of a sector. -/
def sectorBytes : Nat := 512

structure Geometry where
  tracks : Nat
  heads : Nat
  sectors : Nat

/-- The first sector of a read, counted from one, and where it goes. -/
structure Read where
  track : Nat
  head : Nat
  sector : Nat
  count : Nat
  address : Nat
  deriving DecidableEq

/-- The number of bytes that are read. -/
def Read.size (read : Read) : Nat := read.count * sectorBytes

/-- The number of bytes that several reads read. -/
def totalSize : List Read → Nat
  | [] => 0
  | read :: rest => read.size + totalSize rest

namespace Geometry

/-- The place of the first byte on the disk. -/
def offset (geometry : Geometry) (read : Read) : Nat :=
  ((read.track * geometry.heads + read.head) * geometry.sectors +
    (read.sector - 1)) * sectorBytes

/-- The sectors exist on one track, and lie in one segment of 64 KiB. -/
structure Valid (geometry : Geometry) (read : Read) : Prop where
  track : read.track < geometry.tracks
  head : read.head < geometry.heads
  sector : 1 ≤ read.sector
  count : 1 ≤ read.count
  onTrack : read.sector + read.count ≤ geometry.sectors + 1
  inSegment : read.address / 65536 = (read.address + read.size - 1) / 65536

instance (geometry : Geometry) (read : Read) :
    Decidable (geometry.Valid read) :=
  decidable_of_iff
    (read.track < geometry.tracks ∧ read.head < geometry.heads ∧
      1 ≤ read.sector ∧ 1 ≤ read.count ∧
      read.sector + read.count ≤ geometry.sectors + 1 ∧
      read.address / 65536 = (read.address + read.size - 1) / 65536)
    ⟨fun ⟨track, head, sector, count, onTrack, inSegment⟩ =>
      ⟨track, head, sector, count, onTrack, inSegment⟩,
    fun valid => ⟨valid.track, valid.head, valid.sector, valid.count,
      valid.onTrack, valid.inSegment⟩⟩

/-- Each read continues where the one before it ends. -/
def Chained (geometry : Geometry) : List Read → Nat → Nat → Prop
  | [], _, _ => True
  | read :: rest, address, offset =>
      geometry.Valid read ∧ read.address = address ∧
        geometry.offset read = offset ∧
        geometry.Chained rest (address + read.size) (offset + read.size)

instance instDecidableChained (geometry : Geometry) :
    (reads : List Read) → (address offset : Nat) →
      Decidable (geometry.Chained reads address offset)
  | [], _, _ => inferInstanceAs (Decidable True)
  | read :: rest, address, offset =>
      have := instDecidableChained geometry rest (address + read.size)
        (offset + read.size)
      inferInstanceAs (Decidable (_ ∧ _ ∧ _ ∧ _))

end Geometry

/-- The state of the firmware after a call, the memory, and the carry flag. -/
structure Answer (State : Type) where
  state : State
  memory : Memory
  carry : Bool

abbrev Firmware (State : Type) := State → Memory → Read → Answer State

section Reading

variable {State : Type}

/-- Repeat a read until it succeeds. -/
def retry (firmware : Firmware State) (read : Read) :
    (attempts : Nat) → State → Memory → Option (State × Memory)
  | 0, _, _ => none
  | attempts + 1, state, memory =>
      let answer := firmware state memory read
      if answer.carry then
        retry firmware read attempts answer.state answer.memory
      else
        some (answer.state, answer.memory)

/-- Read one after the other. -/
def readAll (firmware : Firmware State) (attempts : Nat) :
    List Read → State → Memory → Option (State × Memory)
  | [], state, memory => some (state, memory)
  | read :: rest, state, memory => do
      let (state, memory) ← retry firmware read attempts state memory
      readAll firmware attempts rest state memory

/-- From `lowest` on, two memories differ in the block only. -/
def SameOutside (lowest address size : Nat) (before after : Memory) : Prop :=
  ∀ other, lowest ≤ other → other < address ∨ address + size ≤ other →
    after other = before other

/-- The block holds the bytes of the disk from an offset on. -/
def HoldsDisk (disk : Nat → Byte) (memory : Memory)
    (address offset size : Nat) : Prop :=
  ∀ index < size, memory (address + index) = disk (offset + index)

/--
Firmware for a disk: when it succeeds on a valid read, the sectors are in
memory; each call leaves alone what lies outside of the block, from `lowest` on;
and repeating a valid read will succeed.
-/
structure Conforming (geometry : Geometry) (disk : Nat → Byte)
    (lowest : Nat) (firmware : Firmware State) : Prop where
  copies : ∀ state memory read, geometry.Valid read →
    (firmware state memory read).carry = false →
    HoldsDisk disk (firmware state memory read).memory read.address
      (geometry.offset read) read.size
  frame : ∀ state memory read,
    SameOutside lowest read.address read.size memory
      (firmware state memory read).memory
  succeeds : ∀ state memory read, geometry.Valid read →
    ∃ attempts, (retry firmware read attempts state memory).isSome

variable {firmware : Firmware State} {geometry : Geometry}
  {disk : Nat → Byte} {lowest address offset attempts : Nat}
  {state last : State} {memory after middle : Memory} {read : Read}
  {reads : List Read}

theorem SameOutside.trans {size : Nat}
    (first : SameOutside lowest address size memory middle)
    (second : SameOutside lowest address size middle after) :
    SameOutside lowest address size memory after :=
  fun other high outside =>
    (second other high outside).trans (first other high outside)

/-- A part of a block is a block. -/
theorem SameOutside.mono {size inner innerSize : Nat}
    (same : SameOutside lowest inner innerSize memory after)
    (above : address ≤ inner) (below : inner + innerSize ≤ address + size) :
    SameOutside lowest address size memory after := by
  intro other high outside
  apply same other high
  omega

/-- More attempts do not change the outcome. -/
theorem retry_mono (extra : Nat)
    (ran : retry firmware read attempts state memory = some (last, after)) :
    retry firmware read (attempts + extra) state memory =
      some (last, after) := by
  induction attempts generalizing state memory with
  | zero => cases ran
  | succ attempts induction =>
      rw [Nat.succ_add]
      rw [retry] at ran ⊢
      split at ran
      next failed =>
        rw [if_pos failed]
        exact induction ran
      next succeeded =>
        rw [if_neg succeeded]
        exact ran

theorem retry_spec (conforming : Conforming geometry disk lowest firmware)
    (valid : geometry.Valid read)
    (ran : retry firmware read attempts state memory = some (last, after)) :
    HoldsDisk disk after read.address (geometry.offset read) read.size ∧
      SameOutside lowest read.address read.size memory after := by
  induction attempts generalizing state memory with
  | zero => cases ran
  | succ attempts induction =>
      have frame := conforming.frame state memory read
      rw [retry] at ran
      split at ran
      next failed =>
        rcases induction ran with ⟨holds, later⟩
        exact ⟨holds, frame.trans later⟩
      next succeeded =>
        cases ran
        have success : (firmware state memory read).carry = false := by
          simpa using succeeded
        exact ⟨conforming.copies state memory read valid success, frame⟩

theorem readAll_mono (extra : Nat)
    (ran : readAll firmware attempts reads state memory =
      some (last, after)) :
    readAll firmware (attempts + extra) reads state memory =
      some (last, after) := by
  induction reads generalizing state memory with
  | nil => exact ran
  | cons read reads induction =>
      rcases Option.bind_eq_some_iff.mp ran with
        ⟨⟨next, middle⟩, first, later⟩
      apply Option.bind_eq_some_iff.mpr
      exact ⟨(next, middle), retry_mono extra first, induction later⟩

/-- A chain of reads copies one stretch of the disk, and nothing else. -/
theorem readAll_spec (conforming : Conforming geometry disk lowest firmware)
    (chained : geometry.Chained reads address offset)
    (high : lowest ≤ address)
    (ran : readAll firmware attempts reads state memory =
      some (last, after)) :
    HoldsDisk disk after address offset (totalSize reads) ∧
      SameOutside lowest address (totalSize reads) memory after := by
  induction reads generalizing address offset state memory with
  | nil =>
      cases ran
      exact ⟨fun index small => absurd small (Nat.not_lt_zero index),
        fun _ _ _ => rfl⟩
  | cons read reads induction =>
      rcases Option.bind_eq_some_iff.mp ran with
        ⟨⟨next, middle⟩, first, later⟩
      rcases chained with ⟨valid, rfl, rfl, rest⟩
      rcases retry_spec conforming valid first with ⟨holds, frame⟩
      rcases induction rest (Nat.le_add_right_of_le high) later with
        ⟨restHolds, restFrame⟩
      rw [totalSize]
      constructor
      · intro index small
        by_cases inFirst : index < read.size
        · rw [restFrame _ (Nat.le_add_right_of_le high) (by omega)]
          exact holds index inFirst
        · have position : index = read.size + (index - read.size) := by omega
          have value := restHolds (index - read.size) (by omega)
          rw [position, ← Nat.add_assoc, ← Nat.add_assoc]
          exact value
      · exact (frame.mono (by omega) (by omega)).trans
          (restFrame.mono (by omega) (by omega))

/-- A chain of reads comes to an end. -/
theorem readAll_succeeds
    (conforming : Conforming geometry disk lowest firmware)
    (chained : geometry.Chained reads address offset) (state : State)
    (memory : Memory) :
    ∃ attempts last after,
      readAll firmware attempts reads state memory = some (last, after) := by
  induction reads generalizing address offset state memory with
  | nil => exact ⟨0, state, memory, rfl⟩
  | cons read reads induction =>
      rcases chained with ⟨valid, _, _, rest⟩
      rcases conforming.succeeds state memory read valid with
        ⟨attempts, succeeded⟩
      rcases Option.isSome_iff_exists.mp succeeded with
        ⟨⟨next, middle⟩, first⟩
      rcases induction rest next middle with ⟨more, last, after, later⟩
      have firstAgain := retry_mono more first
      have laterAgain := readAll_mono attempts later
      rw [Nat.add_comm] at laterAgain
      refine ⟨attempts + more, last, after, ?_⟩
      apply Option.bind_eq_some_iff.mpr
      exact ⟨(next, middle), firstAgain, laterAgain⟩

end Reading

end MagicalOs.Library.FloppyDisk
