import MagicalOs.Library.ByteMemory
import Mathlib.Logic.Function.Basic

/-!
# Reading several sectors

`blk_read_sector` reads consecutive sectors through the operations table of a
block driver.  The sector number advances from one read to the next, but the
destination does not: every read fills the first block of the output array, so
only calls which read one sector leave what they should.
-/

namespace MagicalOs.Devices.BlockReads

open MagicalOs.Library.ByteMemory

/-- `block_data_t`, as its array of sector words. -/
abbrev Block := Fin 256 → Half

/--
A block driver, by its `read` operation for device zero: the status, what it
makes of its buffer, and the state it leaves behind.  A successful read fills
the buffer with the content of the sector.
-/
structure Driver (State : Type) where
  read : State → Word → Int × (Block → Block) × State
  content : Word → Block
  fills : ∀ state sector buffer, (read state sector).1 = 0 →
    (read state sector).2.1 buffer = content sector

variable {State : Type}

/-- The loop of `blk_read_sector`, with the remaining number of rounds. -/
def blkReadLoop (driver : Driver State) :
    (remaining : Nat) → Word → (Nat → Block) → State →
      Int × (Nat → Block) × State
  | 0, _, out, state => (0, out, state)
  | remaining + 1, sector, out, state =>
      let (ret, fill, state) := driver.read state sector
      let out := Function.update out 0 (fill (out 0))
      if ret ≠ 0 then
        (ret, out, state)
      else
        blkReadLoop driver remaining (sector + 1#32) out state

/-- `blk_read_sector`: the status, the output array and the driver's state. -/
def blkReadSector (driver : Driver State) (out : Nat → Block)
    (sectorNum : Word) (count : Nat) (state : State) :
    Int × (Nat → Block) × State :=
  blkReadLoop driver count sectorNum out state

/-- The macro `read_one_sector`. -/
def readOneSector (driver : Driver State) (out : Nat → Block)
    (sectorNum : Word) (state : State) : Int × (Nat → Block) × State :=
  blkReadSector driver out sectorNum 1 state

/-! ## The reads of a call -/

/-- The state of the driver before read number `index`. -/
def stateBefore (driver : Driver State) (sector : Word) (state : State) :
    (index : Nat) → State
  | 0 => state
  | index + 1 =>
      (driver.read (stateBefore driver sector state index)
        (sector + BitVec.ofNat 32 index)).2.2

/-- The status of read number `index`. -/
def status (driver : Driver State) (sector : Word) (state : State)
    (index : Nat) : Int :=
  (driver.read (stateBefore driver sector state index)
    (sector + BitVec.ofNat 32 index)).1

/-- What read number `index` makes of its buffer. -/
def fill (driver : Driver State) (sector : Word) (state : State)
    (index : Nat) : Block → Block :=
  (driver.read (stateBefore driver sector state index)
    (sector + BitVec.ofNat 32 index)).2.1

/-- The first `reads` reads succeed, and then the call ends. -/
def Ends (driver : Driver State) (sector : Word) (state : State)
    (count reads : Nat) : Prop :=
  (∀ index < reads, status driver sector state index = 0) ∧
    (reads = count ∨ reads < count ∧ status driver sector state reads ≠ 0)

/-- Every block in front of `reads` holds its sector. -/
def Filled (driver : Driver State) (sector : Word) (out : Nat → Block)
    (reads : Nat) : Prop :=
  ∀ index < reads, out index = driver.content (sector + BitVec.ofNat 32 index)

/-- What `blk_read_sector` should return, and leave in the output array. -/
structure ReadsSectors (driver : Driver State) (out : Nat → Block)
    (sector : Word) (count : Nat) (state : State)
    (result : Int × (Nat → Block) × State) : Prop where
  success : result.1 = 0 → Filled driver sector result.2.1 count
  failure : result.1 ≠ 0 → ∃ reads < count,
    (∀ index < reads, status driver sector state index = 0) ∧
      status driver sector state reads = result.1 ∧
      Filled driver sector result.2.1 reads ∧
      ∀ index, reads < index → result.2.1 index = out index

/-- The first block after `reads` successful reads, and a failed one. -/
def firstBlock (driver : Driver State) (out : Nat → Block) (sector : Word)
    (count : Nat) (state : State) : (reads : Nat) → Block
  | 0 => if count = 0 then out 0 else fill driver sector state 0 (out 0)
  | reads + 1 =>
      if count = reads + 1 then
        driver.content (sector + BitVec.ofNat 32 reads)
      else
        fill driver sector state (reads + 1)
          (driver.content (sector + BitVec.ofNat 32 reads))

/--
It cannot be told that every sector was read into the first block: the last
read has left the first sector there, and the other blocks held their sectors
before.
-/
def Unnoticed (driver : Driver State) (out : Nat → Block) (sector : Word)
    (count : Nat) (state : State) : Prop :=
  ∀ reads, Ends driver sector state count reads → 0 < reads →
    firstBlock driver out sector count state reads = driver.content sector ∧
      ∀ index, 0 < index → index < reads →
        out index = driver.content (sector + BitVec.ofNat 32 index)

section Loop

variable {driver : Driver State} {sector : Word} {state : State}
  {out : Nat → Block} {count reads other : Nat}

private theorem sector_succ (sector : Word) (index : Nat) :
    sector + 1#32 + BitVec.ofNat 32 index =
      sector + BitVec.ofNat 32 (index + 1) := by
  rw [BitVec.ofNat_add, BitVec.add_comm (BitVec.ofNat 32 index),
    BitVec.add_assoc]

/-- The reads behind the first one are those from the next sector on. -/
theorem stateBefore_succ (index : Nat) :
    stateBefore driver sector state (index + 1) =
      stateBefore driver (sector + 1#32) (driver.read state sector).2.2
        index := by
  induction index with
  | zero => simp [stateBefore]
  | succ index induction =>
      rw [stateBefore, induction, ← sector_succ sector index, stateBefore]

theorem status_succ (index : Nat) :
    status driver sector state (index + 1) =
      status driver (sector + 1#32) (driver.read state sector).2.2 index := by
  rw [status, status, stateBefore_succ, sector_succ]

theorem fill_succ (index : Nat) :
    fill driver sector state (index + 1) =
      fill driver (sector + 1#32) (driver.read state sector).2.2 index := by
  rw [fill, fill, stateBefore_succ, sector_succ]

theorem status_zero :
    status driver sector state 0 = (driver.read state sector).1 := by
  simp [status, stateBefore]

theorem fill_zero :
    fill driver sector state 0 = (driver.read state sector).2.1 := by
  simp [fill, stateBefore]

/-- A first read which succeeds is one more successful read. -/
theorem Ends.succ (succeeds : status driver sector state 0 = 0)
    (ends : Ends driver (sector + 1#32) (driver.read state sector).2.2
      count reads) :
    Ends driver sector state (count + 1) (reads + 1) := by
  rcases ends with ⟨before, last⟩
  constructor
  · intro index below
    cases index with
    | zero => exact succeeds
    | succ index =>
        rw [status_succ]
        exact before index (Nat.lt_of_succ_lt_succ below)
  · rw [status_succ]
    rcases last with all | ⟨below, fails⟩
    · exact .inl (congrArg (· + 1) all)
    · exact .inr ⟨Nat.succ_lt_succ below, fails⟩

/-- A call ends after one number of successful reads only. -/
theorem Ends.unique (left : Ends driver sector state count reads)
    (right : Ends driver sector state count other) : reads = other := by
  have notLess {first second : Nat}
      (ends : Ends driver sector state count first)
      (others : Ends driver sector state count second) :
      ¬first < second := by
    intro less
    rcases ends.2 with all | ⟨_, fails⟩
    · rcases others.2 with otherAll | ⟨below, _⟩
      · omega
      · omega
    · exact fails (others.1 first less)
  have atLeast := notLess left right
  have atMost := notLess right left
  omega

/-- The first block from the second read on. -/
private theorem firstBlock_succ
    (succeeds : status driver sector state 0 = 0) :
    firstBlock driver
        (Function.update out 0 (fill driver sector state 0 (out 0)))
        (sector + 1#32) count (driver.read state sector).2.2 reads =
      firstBlock driver out sector (count + 1) state (reads + 1) := by
  have filled (buffer : Block) :
      fill driver sector state 0 buffer = driver.content sector := by
    rw [fill_zero]
    exact driver.fills state sector buffer (status_zero.symm.trans succeeds)
  cases reads with
  | zero =>
      simp only [firstBlock, Function.update_self, filled, Nat.add_eq_right,
        BitVec.add_zero, fill_succ, Nat.zero_add]
  | succ reads =>
      simp only [firstBlock, Nat.add_right_cancel_iff, sector_succ, fill_succ]

/-- The loop reads until the first failure, always into the first block. -/
theorem blkReadLoop_spec (driver : Driver State) (sector : Word)
    (state : State) (out : Nat → Block) (count : Nat) :
    ∃ reads, Ends driver sector state count reads ∧
      (blkReadLoop driver count sector out state).1 =
        (if reads = count then 0 else status driver sector state reads) ∧
      (blkReadLoop driver count sector out state).2.1 =
        Function.update out 0
          (firstBlock driver out sector count state reads) := by
  induction count generalizing sector out state with
  | zero =>
      refine ⟨0, ⟨by simp, .inl rfl⟩, rfl, ?_⟩
      rw [blkReadLoop, firstBlock, if_pos rfl, Function.update_eq_self]
  | succ count induction =>
      by_cases succeeds : status driver sector state 0 = 0
      · have first : ¬(driver.read state sector).1 ≠ 0 :=
          not_not.mpr (status_zero.symm.trans succeeds)
        have unfolded : blkReadLoop driver (count + 1) sector out state =
            blkReadLoop driver count (sector + 1#32)
              (Function.update out 0 (fill driver sector state 0 (out 0)))
              (driver.read state sector).2.2 := by
          rw [blkReadLoop, fill_zero]
          exact if_neg first
        rcases induction (sector + 1#32) (driver.read state sector).2.2
          (Function.update out 0 (fill driver sector state 0 (out 0))) with
          ⟨reads, ends, returned, written⟩
        refine ⟨reads + 1, ends.succ succeeds, ?_, ?_⟩
        · rw [unfolded, returned, status_succ]
          simp
        · rw [unfolded, written, firstBlock_succ succeeds,
            Function.update_idem]
      · have first : (driver.read state sector).1 ≠ 0 :=
          fun zero => succeeds (status_zero.trans zero)
        have unfolded : blkReadLoop driver (count + 1) sector out state =
            (status driver sector state 0,
              Function.update out 0 (fill driver sector state 0 (out 0)),
              (driver.read state sector).2.2) := by
          rw [blkReadLoop, fill_zero, status_zero]
          exact if_pos first
        refine ⟨0, ⟨by simp, .inr ⟨Nat.succ_pos count, succeeds⟩⟩, ?_, ?_⟩
        · rw [unfolded]
          simp
        · rw [unfolded, firstBlock, if_neg (Nat.succ_ne_zero count)]

end Loop

/-! ## When the destination does not matter -/

section Result

variable {driver : Driver State} {sector : Word} {state : State}
  {out : Nat → Block} {count : Nat}

/-- One sector is read where it belongs. -/
theorem unnoticed_of_le_one (few : count ≤ 1) :
    Unnoticed driver out sector count state := by
  intro reads ends positive
  have one : reads = 1 ∧ count = 1 := by
    rcases ends.2 with all | ⟨below, _⟩
    · omega
    · omega
  rw [one.1, one.2]
  constructor
  · simp [firstBlock]
  · intro index above below
    omega

/-- The blocks which the reads should have filled. -/
private theorem filled_iff {reads : Nat} {block : Block} :
    Filled driver sector (Function.update out 0 block) reads ↔
      (0 < reads → block = driver.content sector ∧
        ∀ index, 0 < index → index < reads →
          out index = driver.content (sector + BitVec.ofNat 32 index)) := by
  constructor
  · intro filled positive
    constructor
    · simpa using filled 0 positive
    · intro index above below
      have kept := filled index below
      rwa [Function.update_of_ne (Nat.ne_of_gt above)] at kept
  · intro expected index below
    rcases expected (Nat.lt_of_le_of_lt (Nat.zero_le index) below) with
      ⟨first, others⟩
    cases index with
    | zero => simpa using first
    | succ index =>
        rw [Function.update_of_ne (Nat.succ_ne_zero index)]
        exact others (index + 1) (Nat.succ_pos index) below

/-- What `blk_read_sector` returns and writes, by its number of reads. -/
private theorem blkReadSector_spec (driver : Driver State) (sector : Word)
    (state : State) (out : Nat → Block) (count : Nat) :
    ∃ reads, Ends driver sector state count reads ∧
      (blkReadSector driver out sector count state).1 =
        (if reads = count then 0 else status driver sector state reads) ∧
      (blkReadSector driver out sector count state).2.1 =
        Function.update out 0
          (firstBlock driver out sector count state reads) :=
  blkReadLoop_spec driver sector state out count

/-- A call which meets its purpose has filled all blocks it has read. -/
private theorem unnoticed_of_readsSectors
    (meets : ReadsSectors driver out sector count state
      (blkReadSector driver out sector count state)) :
    Unnoticed driver out sector count state := by
  rcases blkReadSector_spec driver sector state out count with
    ⟨reads, ends, returned, written⟩
  intro other otherEnds
  have same := ends.unique otherEnds
  rw [← same, ← filled_iff, ← written]
  by_cases all : reads = count
  · have filled := meets.success (by rw [returned, if_pos all])
    rwa [all]
  · have fails : status driver sector state reads ≠ 0 :=
      (ends.2.resolve_left all).2
    rcases meets.failure (by rwa [returned, if_neg all]) with
      ⟨first, below, before, isStatus, filled, _⟩
    rw [returned, if_neg all] at isStatus
    have firstEnds : Ends driver sector state count first :=
      ⟨before, .inr ⟨below, isStatus ▸ fails⟩⟩
    rwa [← firstEnds.unique ends]

private theorem readsSectors_of_unnoticed
    (unnoticed : Unnoticed driver out sector count state) :
    ReadsSectors driver out sector count state
      (blkReadSector driver out sector count state) := by
  rcases blkReadSector_spec driver sector state out count with
    ⟨reads, ends, returned, written⟩
  have filled := filled_iff.mpr (unnoticed reads ends)
  rw [← written] at filled
  constructor
  · intro zero
    by_cases all : reads = count
    · rwa [all] at filled
    · rw [returned, if_neg all] at zero
      exact absurd zero (ends.2.resolve_left all).2
  · intro nonZero
    have partway : reads ≠ count := fun all =>
      nonZero (by rw [returned, if_pos all])
    refine ⟨reads, (ends.2.resolve_left partway).1, ends.1, ?_, filled, ?_⟩
    · rw [returned, if_neg partway]
    · intro index above
      rw [written]
      exact Function.update_of_ne (Nat.ne_zero_of_lt above) _ _

/--
`blk_read_sector` does what it should exactly when it reads at most one sector,
or when the difference cannot be noticed.
-/
theorem readsSectors_iff :
    ReadsSectors driver out sector count state
        (blkReadSector driver out sector count state) ↔
      count ≤ 1 ∨ Unnoticed driver out sector count state := by
  constructor
  · exact fun meets => .inr (unnoticed_of_readsSectors meets)
  · rintro (few | unnoticed)
    · exact readsSectors_of_unnoticed (unnoticed_of_le_one few)
    · exact readsSectors_of_unnoticed unnoticed

end Result

/-! ## Two sectors -/

/-- A driver for a disk whose sector `n` holds `n` in every word. -/
def numberedDriver : Driver Unit where
  read := fun _ sector => (0, fun _ _ => sector.setWidth 16, ())
  content := fun sector _ => sector.setWidth 16
  fills := by
    intro _ _ _ _
    rfl

/-- Reading sectors 5 and 6 leaves sector 6 in the first block. -/
theorem twoSectors_not_readsSectors :
    ¬ReadsSectors numberedDriver (fun _ _ => 0#16) 5#32 2 ()
      (blkReadSector numberedDriver (fun _ _ => 0#16) 5#32 2 ()) := by
  intro meets
  have first := meets.success (by decide) 0 (by decide)
  have word := congrFun first 0
  exact absurd word (by decide)

end MagicalOs.Devices.BlockReads
