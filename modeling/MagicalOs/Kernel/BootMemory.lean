import MagicalOs.Kernel.PageTables
import Mathlib.Data.Set.Basic

/-!
# What paging leaves of the memory at boot

`mem_init` owns the page of the kernel page directory and the page tables the
directory refers to, which is the one page behind it.  The two last loops over
the page table do not stop at the end of that page: they store the entries of
fourteen mebibytes, and zeros up to an index which is that of a byte count.
Whatever lies below `0x190000` is overwritten: the heap, the video memory and
the first pages of the extended heap.
-/

namespace MagicalOs.Kernel.BootMemory

open MagicalOs.Kernel.PageTables
open MagicalOs.Kernel.PageTables.PageEntry
open MagicalOs.Library.ByteMemory
open MagicalOs.Library.ByteMemory.Memory

/-! ## The pages of the tables -/

/-- The page directory at `0x8f000` and the page tables it refers to. -/
def TableBytes (mem : Memory) : Set Nat :=
  { address |
    0x8f000 ≤ address ∧ address < 0x8f000 + 4096 ∨
      ∃ index < 0x400,
        p (mem.load32 (0x8f000 + 4 * index)) = 1#1 ∧
          frame (base (mem.load32 (0x8f000 + 4 * index))) ≤ address ∧
          address < frame (base (mem.load32 (0x8f000 + 4 * index))) + 4096 }

theorem frame_kernelTable : frame 0x00090#20 = 0x90000 := rfl

/-- The kernel directory refers to the page behind it only. -/
theorem mem_tableBytes {mem : Memory} (tables : KernelTables mem)
    (address : Nat) :
    address ∈ TableBytes mem ↔ 0x8f000 ≤ address ∧ address < 0x91000 := by
  have fields := kernelDirectoryEntry_fields
  constructor
  · rintro (⟨lower, upper⟩ | ⟨index, inTable, present, lower, upper⟩)
    · omega
    · rcases Nat.eq_zero_or_pos index with rfl | positive
      · rw [Nat.mul_zero, Nat.add_zero, tables.directory, fields.2.2.2,
          frame_kernelTable] at lower upper
        omega
      · rw [tables.unused index positive inTable] at present
        exact absurd present (by decide)
  · intro inPages
    by_cases inDirectory : address < 0x8f000 + 4096
    · exact .inl ⟨inPages.1, inDirectory⟩
    · apply Or.inr
      refine ⟨0, by omega, ?_⟩
      rw [Nat.mul_zero, Nat.add_zero, tables.directory, fields.1,
        fields.2.2.2, frame_kernelTable]
      exact ⟨rfl, by omega, by omega⟩

/-! ## What the loops write -/

/-- The directory and everything up to the index of the last loop. -/
theorem memInit_agreeOutside (mem : Memory) :
    AgreeOutside (memInit mem) mem 0x8f000 0x101000 := by
  have table := (initKernelTable_reached (initKernelDirectory mem).mem).frame
  have startIndex : (tableStart (initKernelDirectory mem).mem).i = 0 := rfl
  have startMem :
      (tableStart (initKernelDirectory mem).mem).mem =
        (initKernelDirectory mem).mem := rfl
  rw [startIndex, startMem] at table
  rw [memInit, EntryCursor.written]
  exact (table.mono (by omega) (by omega)).trans
    ((initKernelDirectory_agreeOutside mem).mono (by omega) (by omega))

/-- The entries of the extended heap go on behind the page of the table. -/
theorem memInit_heapEntry (mem : Memory) (page : Nat)
    (lower : 0x100 ≤ page) (upper : page < 0xeff) :
    (memInit mem).load32 (0x90000 + 4 * page) =
      kernelPageEntry (BitVec.ofNat 20 page) := by
  rw [memInit]
  exact initKernelTable_heapEntry (initKernelDirectory mem).mem page
    lower upper

theorem memInit_cleared (mem : Memory) (address : Nat)
    (lower : 0x90000 + 4 * 0xeff ≤ address) (upper : address < 0x190000) :
    memInit mem address = 0#8 := by
  have word := memInit_zero mem ((address - 0x90000) / 4) (by omega) (by omega)
  have inWord := load8_eq_extractLsb' (memInit mem)
    (0x90000 + 4 * ((address - 0x90000) / 4)) ((address - 0x90000) % 4)
    (by omega)
  rw [word, BitVec.extractLsb'_zero,
    show 0x90000 + 4 * ((address - 0x90000) / 4) + (address - 0x90000) % 4 =
      address by omega] at inWord
  exact inWord

/-! ## When nothing else changes -/

/-- The memory holds what the loops store behind the page of the table. -/
structure HoldsEntries (mem : Memory) : Prop where
  entries : ∀ page, 0x400 ≤ page → page < 0xeff →
    mem.load32 (0x90000 + 4 * page) = kernelPageEntry (BitVec.ofNat 20 page)
  zeros : ∀ address, 0x90000 + 4 * 0xeff ≤ address → address < 0x190000 →
    mem address = 0#8

theorem memInit_holdsEntries (mem : Memory) : HoldsEntries (memInit mem) where
  entries := fun page lower upper =>
    memInit_heapEntry mem page (by omega) upper
  zeros := memInit_cleared mem

/-- The entries and zeros determine the bytes behind the page. -/
theorem HoldsEntries.agreeOn {left right : Memory}
    (first : HoldsEntries left) (second : HoldsEntries right) :
    AgreeOn left right 0x91000 (0x190000 - 0x91000) := by
  intro address lower upper
  by_cases inEntries : address < 0x90000 + 4 * 0xeff
  · have inTable := Nat.div_add_mod (address - 0x90000) 4
    generalize (address - 0x90000) / 4 = page at inTable
    have inWord := Nat.mod_lt (address - 0x90000) (show 0 < 4 by omega)
    generalize (address - 0x90000) % 4 = offset at inTable inWord
    have position : address = 0x90000 + 4 * page + offset := by omega
    rw [position, load8_eq_extractLsb' left _ offset inWord,
      load8_eq_extractLsb' right _ offset inWord,
      first.entries page (by omega) (by omega),
      second.entries page (by omega) (by omega)]
  · exact (first.zeros address (by omega) (by omega)).trans
      (second.zeros address (by omega) (by omega)).symm

theorem HoldsEntries.congr {left right : Memory}
    (holds : HoldsEntries left)
    (agree : AgreeOn right left 0x91000 (0x190000 - 0x91000)) :
    HoldsEntries right where
  entries := by
    intro page lower upper
    exact ((agree.sub (0x90000 + 4 * page) 4
      (by omega) (by omega)).load32).trans (holds.entries page lower upper)
  zeros := by
    intro address lower upper
    exact (agree address (by omega) (by omega)).trans
      (holds.zeros address lower upper)

/-- `mem_init` keeps to its tables exactly if its last stores change nothing. -/
theorem memInit_keepsElsewhere_iff (mem : Memory) :
    (∀ address, address ∉ TableBytes (memInit mem) →
      memInit mem address = mem address) ↔ HoldsEntries mem := by
  have inTables := mem_tableBytes (memInit_kernelTables mem)
  have stored := memInit_holdsEntries mem
  have outside := memInit_agreeOutside mem
  generalize memInit mem = initial at inTables stored outside ⊢
  constructor
  · intro keeps
    apply stored.congr
    intro address lower upper
    have elsewhere : address ∉ TableBytes initial := by
      rw [inTables address]
      omega
    exact (keeps address elsewhere).symm
  · intro holds address elsewhere
    rw [inTables address] at elsewhere
    by_cases behind : 0x91000 ≤ address ∧ address < 0x190000
    · exact stored.agreeOn holds address behind.1 (by omega)
    · exact outside address (by omega)

/-- A character on the screen at boot. -/
def characterOnScreen : Memory :=
  fun address => if address = 0xb8000 then 0x41#8 else 0#8

/-- The character is gone. -/
theorem characterOnScreen_not_kept :
    ¬ ∀ address, address ∉ TableBytes (memInit characterOnScreen) →
      memInit characterOnScreen address = characterOnScreen address := by
  intro keeps
  have cleared := memInit_cleared characterOnScreen 0xb8000
    (by omega) (by omega)
  have elsewhere : 0xb8000 ∉ TableBytes (memInit characterOnScreen) := by
    rw [mem_tableBytes (memInit_kernelTables characterOnScreen)]
    omega
  have kept := keeps 0xb8000 elsewhere
  rw [cleared] at kept
  exact absurd kept (by decide)

end MagicalOs.Kernel.BootMemory
