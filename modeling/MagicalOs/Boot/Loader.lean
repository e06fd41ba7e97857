import MagicalOs.Library.FloppyDisk

/-!
# The boot loader

The boot sector reads the kernel and the applications from the floppy disk with
seven calls of the BIOS, each for sectors of one track.  The BIOS sets the carry
flag when a call fails, and the loader repeats the call.

The seven calls are a chain: together they copy the 97 sectors behind the boot
sector to the addresses from `0x7e00` on, without a gap.  No call crosses the
end of a track or a boundary of 64 KiB.
-/

namespace MagicalOs.Boot.Loader

open MagicalOs.Library.ByteMemory
open MagicalOs.Library.FloppyDisk

/-! ## `int 0x13` -/

/-- The registers of a call. -/
structure Registers where
  ax : Half
  bx : Half
  cx : Half
  dx : Half
  es : Half

namespace Registers

/-- `AH` is the service, and `DL` the drive. -/
def readsFirstDrive (registers : Registers) : Prop :=
  registers.ax.extractLsb' 8 8 = 0x02#8 ∧
    registers.dx.extractLsb' 0 8 = 0x00#8

instance (registers : Registers) : Decidable registers.readsFirstDrive :=
  inferInstanceAs (Decidable (_ ∧ _))

/-- What the registers ask for: `CL` holds the highest bits of the track. -/
def read (registers : Registers) : Read where
  track :=
    (registers.cx.extractLsb' 6 2 ++ registers.cx.extractLsb' 8 8).toNat
  head := (registers.dx.extractLsb' 8 8).toNat
  sector := (registers.cx.extractLsb' 0 6).toNat
  count := (registers.ax.extractLsb' 0 8).toNat
  address := registers.es.toNat * 16 + registers.bx.toNat

end Registers

variable {State : Type}

/-- The reading service of the BIOS; every other service fails here. -/
def int0x13 (bios : Firmware State) (registers : Registers) (state : State)
    (memory : Memory) : Answer State :=
  if registers.readsFirstDrive then
    bios state memory registers.read
  else
    { state := state, memory := memory, carry := true }

/-! ## The seven calls -/

def loadTrack0Head0 : Registers where
  ax := 0x0211#16
  bx := 0x7e00#16
  cx := 0x0002#16
  dx := 0x0000#16
  es := 0x0000#16

def loadTrack0Head1 : Registers where
  ax := 0x0212#16
  bx := 0xa000#16
  cx := 0x0001#16
  dx := 0x0100#16
  es := 0x0000#16

def loadTrack1Head0 : Registers where
  ax := 0x0212#16
  bx := 0xc400#16
  cx := 0x0101#16
  dx := 0x0000#16
  es := 0x0000#16

def loadTrack1Head1First : Registers where
  ax := 0x020c#16
  bx := 0xe800#16
  cx := 0x0101#16
  dx := 0x0100#16
  es := 0x0000#16

def loadTrack1Head1Second : Registers where
  ax := 0x0206#16
  bx := 0x0000#16
  cx := 0x010d#16
  dx := 0x0100#16
  es := 0x1000#16

def loadTrack2Head0 : Registers where
  ax := 0x0212#16
  bx := 0x0c00#16
  cx := 0x0201#16
  dx := 0x0000#16
  es := 0x1000#16

def loadTrack2Head1 : Registers where
  ax := 0x0208#16
  bx := 0x3000#16
  cx := 0x0201#16
  dx := 0x0100#16
  es := 0x1000#16

/-- The calls, in the order of their labels. -/
def calls : List Registers :=
  [loadTrack0Head0, loadTrack0Head1, loadTrack1Head0, loadTrack1Head1First,
    loadTrack1Head1Second, loadTrack2Head0, loadTrack2Head1]

/-- `int $0x13` and the `jc` back to the label in front of it. -/
def loadLoop (bios : Firmware State) (registers : Registers) :
    (attempts : Nat) → State → Memory → Option (State × Memory)
  | 0, _, _ => none
  | attempts + 1, state, memory =>
      let answer := int0x13 bios registers state memory
      if answer.carry then
        loadLoop bios registers attempts answer.state answer.memory
      else
        some (answer.state, answer.memory)

/-- The loops, one behind the other. -/
def loadLoops (bios : Firmware State) (attempts : Nat) :
    List Registers → State → Memory → Option (State × Memory)
  | [], state, memory => some (state, memory)
  | registers :: rest, state, memory => do
      let (state, memory) ← loadLoop bios registers attempts state memory
      loadLoops bios attempts rest state memory

/-- The loader, from its first call to the last. -/
def load (bios : Firmware State) (attempts : Nat) (state : State)
    (memory : Memory) : Option (State × Memory) :=
  loadLoops bios attempts calls state memory

/-! ## What is loaded -/

/-- A floppy disk with high density. -/
def floppy : Geometry where
  tracks := 80
  heads := 2
  sectors := 18

/-- The memory of the BIOS and the stack lie below the boot sector. -/
def bootSector : Nat := 0x7c00

/-- The kernel is loaded, and started, here. -/
def loadAddress : Nat := 0x7e00

/-- The 97 sectors. -/
def loadSize : Nat := 0xc200

section Load

variable {bios : Firmware State} {disk : Nat → Byte} {state last : State}
  {memory after : Memory} {attempts : Nat} {registers : Registers}

theorem loadLoop_eq (reads : registers.readsFirstDrive) (attempts : Nat)
    (state : State) (memory : Memory) :
    loadLoop bios registers attempts state memory =
      retry bios registers.read attempts state memory := by
  induction attempts generalizing state memory with
  | zero => rfl
  | succ attempts induction =>
      rw [loadLoop, retry, int0x13, if_pos reads]
      simp only [induction]

theorem loadLoops_eq {registers : List Registers}
    (reads : ∀ call ∈ registers, call.readsFirstDrive) (attempts : Nat)
    (state : State) (memory : Memory) :
    loadLoops bios attempts registers state memory =
      readAll bios attempts (registers.map Registers.read) state memory := by
  induction registers generalizing state memory with
  | nil => rfl
  | cons call rest induction =>
      have first := reads call List.mem_cons_self
      rw [loadLoops, List.map_cons, readAll, loadLoop_eq first]
      apply congrArg (Option.bind _)
      funext next
      exact induction (fun other member =>
        reads other (List.mem_cons_of_mem call member)) next.1 next.2

/-- The calls read the tracks one behind the other. -/
theorem calls_chained :
    floppy.Chained (calls.map Registers.read) loadAddress sectorBytes := by
  decide +kernel

theorem calls_size :
    totalSize (calls.map Registers.read) = loadSize := by
  decide +kernel

theorem load_eq (attempts : Nat) (state : State) (memory : Memory) :
    load bios attempts state memory =
      readAll bios attempts (calls.map Registers.read) state memory := by
  apply loadLoops_eq
  decide

theorem load_spec (conforming : Conforming floppy disk bootSector bios)
    (ran : load bios attempts state memory = some (last, after)) :
    HoldsDisk disk after loadAddress sectorBytes loadSize ∧
      SameOutside bootSector loadAddress loadSize memory after := by
  have high : bootSector ≤ loadAddress := by decide
  rw [load_eq] at ran
  have copied := readAll_spec conforming calls_chained high ran
  rwa [calls_size] at copied

theorem load_ends (conforming : Conforming floppy disk bootSector bios)
    (state : State) (memory : Memory) :
    ∃ attempts last after,
      load bios attempts state memory = some (last, after) := by
  rcases readAll_succeeds conforming calls_chained state memory with
    ⟨attempts, last, after, ran⟩
  refine ⟨attempts, last, after, ?_⟩
  rw [load_eq, ran]

/--
With a BIOS that may fail on every call, but not for ever, the loader comes to
its end, and then everything behind the boot sector of the disk, up to its 98th
sector, lies in memory from `0x7e00` on; nothing else has changed there.
-/
theorem load_copies
    (conforming : Conforming floppy disk bootSector bios) (state : State)
    (memory : Memory) :
    (∃ attempts last after,
      load bios attempts state memory = some (last, after)) ∧
    ∀ attempts last after,
      load bios attempts state memory = some (last, after) →
      HoldsDisk disk after loadAddress sectorBytes loadSize ∧
        SameOutside bootSector loadAddress loadSize memory after := by
  constructor
  · exact load_ends conforming state memory
  · exact fun attempts last after ran => load_spec conforming ran

/-- A BIOS which fails on every second call, and has read a part by then. -/
def unsteady (disk : Nat → Byte) : Firmware Bool :=
  fun ready memory read =>
    let size := if ready then read.size else read.size / 2
    { state := !ready
      memory := fun other =>
        if read.address ≤ other ∧ other < read.address + size then
          disk (floppy.offset read + (other - read.address))
        else
          memory other
      carry := !ready }

theorem unsteady_conforming (disk : Nat → Byte) (lowest : Nat) :
    Conforming floppy disk lowest (unsteady disk) := by
  constructor
  · intro ready memory read _ success index small
    have isReady : ready = true := by simpa [unsteady] using success
    have inside : read.address ≤ read.address + index ∧
        read.address + index < read.address + read.size :=
      ⟨Nat.le_add_right _ _, Nat.add_lt_add_left small _⟩
    subst isReady
    simp only [unsteady, if_true, if_pos inside, Nat.add_sub_cancel_left]
  · intro ready memory read other _ outside
    have shorter : read.size / 2 ≤ read.size := Nat.div_le_self _ 2
    simp only [unsteady]
    rw [if_neg]
    rintro ⟨above, below⟩
    split at below
    next => omega
    next => omega
  · intro ready memory read _
    refine ⟨2, ?_⟩
    cases ready with
    | false => rfl
    | true => rfl

/-- Every one of the seven calls is repeated once. -/
theorem unsteady_load_copies :
    (∃ attempts last after,
      load (unsteady fun offset => BitVec.ofNat 8 offset) attempts false
        (fun _ => 0#8) = some (last, after)) ∧
    ∀ attempts last after,
      load (unsteady fun offset => BitVec.ofNat 8 offset) attempts false
        (fun _ => 0#8) = some (last, after) →
      HoldsDisk (fun offset => BitVec.ofNat 8 offset) after loadAddress
          sectorBytes loadSize ∧
        SameOutside bootSector loadAddress loadSize (fun _ => 0#8) after :=
  load_copies (unsteady_conforming _ _) false fun _ => 0#8

end Load

end MagicalOs.Boot.Loader
