import MagicalOs.Devices.Pci

/-!
# What the PCI scan finds

The scan stores the functions below its bounds, in the order of its loops, and
each of them with the fields its registers describe.  `Complete` is what the
list should be after the scan: it holds exactly when no function to be listed
has the last bus, device or function number.
-/

namespace MagicalOs.Devices.PciScan

open MagicalOs.Library.BitField
open MagicalOs.Library.ByteMemory
open MagicalOs.Library.SentinelList
open MagicalOs.Kernel.HeapLists
open MagicalOs.Kernel.KernelHeap
open MagicalOs.Devices.Pci

/-! ## The fields of a device -/

section Fields

variable (word : Word)

/-- Bit 23 of a header register, tested by a mask. -/
theorem mask_ne_zero_iff :
    word &&& 0x800000#32 ≠ 0#32 ↔ field word 23 1 = 1#1 := by
  have mask : 0x800000#32 = BitVec.twoPow 32 23 := by decide
  rw [mask]
  exact and_twoPow_ne_zero_iff word (by decide)

theorem isMultiFunction_iff :
    isMultiFunction word = true ↔ field word 23 1 = 1#1 := by
  rw [isMultiFunction, decide_eq_true_iff, mask_ne_zero_iff]

/-- A field of 16 bits, cut out by a mask. -/
theorem low_half : (word &&& 0xffff#32).setWidth 16 = field word 0 16 := by
  have window :=
    setWidth_mask_ushiftRight word 0xffff#32 0 16 (by decide) (by decide)
  simpa using window

theorem high_half :
    ((word >>> 16) &&& 0xffff#32).setWidth 16 = field word 16 16 := by
  rw [ushiftRight_mask word 0xffff#32 16 16 (by decide)]
  simp

theorem prog_byte :
    ((word >>> 8) &&& 0xff#32).setWidth 8 = field word 8 8 := by
  rw [ushiftRight_mask word 0xff#32 8 8 (by decide)]
  simp

theorem header_byte :
    (((word >>> 16) &&& 0xff#32) &&& 0x7f#32).setWidth 8 =
      (field word 16 7).setWidth 8 := by
  have mask : 0xff#32 &&& 0x7f#32 = 0x7f#32 := by decide
  rw [BitVec.and_assoc, mask, ushiftRight_mask word 0x7f#32 16 7 (by decide)]
  simp

theorem multi_byte :
    (if word &&& 0x800000#32 ≠ 0#32 then 1#8 else 0#8) =
      (field word 23 1).setWidth 8 := by
  by_cases multi : field word 23 1 = 1#1
  · rw [if_pos ((mask_ne_zero_iff word).mpr multi), multi]
    decide
  · rw [if_neg (fun set => multi ((mask_ne_zero_iff word).mp set)),
      BitVec.eq_zero_or_eq_one (field word 23 1) |>.resolve_right multi]
    decide

end Fields

/-- The fields which are stored are those of the registers. -/
theorem storedDevice_eq_describe (space : ConfigSpace) (place : Location) :
    storedDevice place.bus (place.dev.setWidth 8)
        (space place.bus place.dev place.func 0#6) (place.func.setWidth 8)
        (space place.bus place.dev place.func 2#6)
        (space place.bus place.dev place.func 3#6)
        (space place.bus place.dev place.func 0xb#6) =
      describe space place := by
  simp only [storedDevice, describe, high_half, prog_byte, header_byte,
    multi_byte]
  simp only [low_half, ushiftRight_mask _ 0xff#32 16 8 (by decide),
    ushiftRight_mask _ 0xff#32 24 8 (by decide)]

theorem describe_inj {space : ConfigSpace} {place other : Location}
    (same : describe space place = describe space other) : place = other := by
  have bus : place.bus = other.bus := congrArg PciDevice.bus same
  have dev : place.dev.setWidth 8 = other.dev.setWidth 8 :=
    congrArg PciDevice.devfn same
  have func : place.func.setWidth 8 = other.func.setWidth 8 :=
    congrArg PciDevice.func same
  have devBack := congrArg (BitVec.setWidth 5) dev
  have funcBack := congrArg (BitVec.setWidth 3) func
  simp only [BitVec.setWidth_setWidth_of_le, Nat.reduceLeDiff,
    BitVec.setWidth_eq] at devBack funcBack
  rcases place with ⟨placeBus, placeDev, placeFunc⟩
  rcases other with ⟨otherBus, otherDev, otherFunc⟩
  simp only at bus devBack funcBack
  rw [bus, devBack, funcBack]

/-! ## The functions below given bounds -/

/-- The functions which answer, among `count` numbers from `first` on. -/
def laterFunctions (space : ConfigSpace) (bus : BitVec 8) (dev : BitVec 5)
    (first count : Nat) : List Location :=
  ((List.range' first count).map fun i => ⟨bus, dev, BitVec.ofNat 3 i⟩).filter
    (Responds space ·)

/-- The functions of a device with numbers below `limit`. -/
def deviceFunctions (space : ConfigSpace) (limit : Nat) (bus : BitVec 8)
    (dev : BitVec 5) : List Location :=
  if Responds space ⟨bus, dev, 0#3⟩ then
    ⟨bus, dev, 0#3⟩ ::
      if Multi space bus dev then
        laterFunctions space bus dev 1 (limit - 1)
      else
        []
  else
    []

/-- The functions of the system with all numbers below the bounds. -/
def functionsBelow (space : ConfigSpace) (buses devices functions : Nat) :
    List Location :=
  (List.range buses).flatMap fun bus =>
    (List.range devices).flatMap fun dev =>
      deviceFunctions space functions (BitVec.ofNat 8 bus) (BitVec.ofNat 5 dev)

theorem laterFunctions_succ (space : ConfigSpace) (bus : BitVec 8)
    (dev : BitVec 5) (first count : Nat) :
    laterFunctions space bus dev first (count + 1) =
      if Responds space ⟨bus, dev, BitVec.ofNat 3 first⟩ then
        ⟨bus, dev, BitVec.ofNat 3 first⟩ ::
          laterFunctions space bus dev (first + 1) count
      else
        laterFunctions space bus dev (first + 1) count := by
  rw [laterFunctions, List.range'_succ, List.map_cons, List.filter_cons]
  simp only [decide_eq_true_eq]
  rfl

/-! ## The list during the scan -/

/-- The nodes hold the devices, and there is room for `free` more. -/
def Stores (list : DeviceList) (devices : List PciDevice) (free : Nat) :
    Prop :=
  ∃ nodes, Kept list.heap list.next nodes ∧
    nodes.map list.data = devices ∧ room list.heap sizeofDeviceList = free

section Steps

variable {space : ConfigSpace} {list : DeviceList} {devices : List PciDevice}
  {free : Nat} {bus : BitVec 8} {dev : BitVec 5} {place : Location}
  {access : ConfigAccess}

/-- While there is room, a device is stored in front. -/
theorem storePciDeviceToList_stores (stores : Stores list devices (free + 1))
    (bus devfn : Byte) (data : Word) (func : Byte)
    (pciClass header subsystem : Word) :
    ∃ after,
      storePciDeviceToList bus devfn data func pciClass header subsystem
          list = some after ∧
        Stores after
          (storedDevice bus devfn data func pciClass header subsystem ::
            devices) free := by
  rcases stores with ⟨nodes, kept, holds, enough⟩
  have returns : kmalloc list.heap sizeofDeviceList ≠ none := by
    intro aborts
    have full := (room_eq_zero_iff kept.valid (by decide) (by decide)).mpr
      aborts
    omega
  rcases Option.ne_none_iff_exists'.mp returns with ⟨⟨p, heap⟩, allocated⟩
  rcases kept.kmalloc (by decide) (by decide) allocated with
    ⟨nonNull, fresh, keptAfter, less⟩
  have notOld : Pointer.node p ∉ nodes :=
    fun member => fresh (List.mem_cons_of_mem _ member)
  have rest : room heap sizeofDeviceList + 1 = free + 1 :=
    less.symm.trans enough
  have result :
      storePciDeviceToList bus devfn data func pciClass header subsystem list =
        some
          { heap := heap
            data :=
              Function.update list.data (.node p)
                (storedDevice bus devfn data func pciClass header subsystem)
            next := pushFront list.next .head (.node p) } := by
    rw [storePciDeviceToList, allocated, Option.bind_some]
    exact if_neg nonNull
  refine ⟨_, result, _, keptAfter, ?_, Nat.succ.inj rest⟩
  rw [← holds]
  exact map_update_cons _ _ notOld

/-- An iteration for a function which does not answer. -/
theorem findPciDataFrom_of_absent {func : BitVec 3}
    (targets : Targets access.reg ⟨bus, dev, func⟩) (devfn : Byte)
    (remaining : Nat) {i : Nat} (small : i < 8)
    (absent : ¬Responds space ⟨bus, dev, BitVec.ofNat 3 i⟩) :
    ∃ next : ConfigAccess, Targets next.reg ⟨bus, dev, BitVec.ofNat 3 i⟩ ∧
      findPciDataFrom space bus devfn (remaining + 1) i access list =
        findPciDataFrom space bus devfn remaining (i + 1) next list := by
  have first := readPciReg00_spec space ⟨_, access.configAddress⟩
    (targets.setFunc small)
  rw [findPciDataFrom]
  dsimp only
  generalize readPciReg00 space ⟨_, access.configAddress⟩ = result at first ⊢
  rcases result with ⟨data, next⟩
  rcases first with ⟨value, targetsNext⟩
  have allOnes : data = 0xffffffff#32 := value.trans (not_not.mp absent)
  refine ⟨next, targetsNext, ?_⟩
  dsimp only
  rw [if_neg (not_not.mpr allOnes)]

/-- An iteration for a function which answers. -/
theorem findPciDataFrom_of_responds {func : BitVec 3}
    (targets : Targets access.reg ⟨bus, dev, func⟩) (remaining : Nat) {i : Nat}
    (small : i < 8) (stores : Stores list devices (free + 1))
    (responds : Responds space ⟨bus, dev, BitVec.ofNat 3 i⟩) :
    ∃ (next : ConfigAccess) (after : DeviceList),
      Targets next.reg ⟨bus, dev, BitVec.ofNat 3 i⟩ ∧
        Stores after
          (describe space ⟨bus, dev, BitVec.ofNat 3 i⟩ :: devices) free ∧
        findPciDataFrom space bus (dev.setWidth 8) (remaining + 1) i access
            list =
          if i = 0 ∧
              isMultiFunction (space bus dev (BitVec.ofNat 3 i) 3#6) = false
          then
            some ⟨next.configAddress, after⟩
          else
            findPciDataFrom space bus (dev.setWidth 8) remaining (i + 1) next
              after := by
  have first := readPciReg00_spec space ⟨_, access.configAddress⟩
    (targets.setFunc small)
  rw [findPciDataFrom]
  dsimp only
  generalize readPciReg00 space ⟨_, access.configAddress⟩ = result at first ⊢
  rcases result with ⟨data, next⟩
  have second := readPciClass_spec space next first.2
  dsimp only at first ⊢
  generalize readPciClass space next = result at second ⊢
  rcases result with ⟨pciClass, next⟩
  have third := readPciHeaderType_spec space next second.2
  dsimp only at second ⊢
  generalize readPciHeaderType space next = result at third ⊢
  rcases result with ⟨header, next⟩
  have fourth := readPciSubSystem_spec space next third.2
  dsimp only at third ⊢
  generalize readPciSubSystem space next = result at fourth ⊢
  rcases result with ⟨subsystem, next⟩
  have last := readPciCommandRegister_spec space next fourth.2
  dsimp only at fourth ⊢
  generalize readPciCommandRegister space next = result at last ⊢
  rcases result with ⟨status, next⟩
  have device :
      storedDevice bus (dev.setWidth 8) data (BitVec.ofNat 8 i) pciClass header
          subsystem =
        describe space ⟨bus, dev, BitVec.ofNat 3 i⟩ := by
    have number : BitVec.ofNat 8 i = (BitVec.ofNat 3 i).setWidth 8 := by
      apply BitVec.eq_of_toNat_eq
      simp only [BitVec.toNat_ofNat, BitVec.toNat_setWidth]
      omega
    rw [← storedDevice_eq_describe, first.1, second.1, third.1, fourth.1,
      number]
  rcases storePciDeviceToList_stores stores bus (dev.setWidth 8) data
    (BitVec.ofNat 8 i) pciClass header subsystem with ⟨after, stored, holds⟩
  rw [device] at holds
  refine ⟨next, after, last, holds, ?_⟩
  have answers : data ≠ 0xffffffff#32 := by
    rw [first.1]
    exact responds
  dsimp only
  rw [if_pos answers, stored, Option.bind_some, third.1]

/-- The iterations for the functions behind function 0. -/
theorem findPciDataFrom_later {func : BitVec 3}
    (targets : Targets access.reg ⟨bus, dev, func⟩) {remaining i : Nat}
    (positive : 0 < i) (small : i + remaining ≤ 8)
    (stores : Stores list devices
      ((laterFunctions space bus dev i remaining).length + free)) :
    ∃ after,
      findPciDataFrom space bus (dev.setWidth 8) remaining i access list =
          some after ∧
        Stores after.list
          (((laterFunctions space bus dev i remaining).map
            (describe space)).reverse ++ devices) free := by
  induction remaining generalizing i access list devices func with
  | zero =>
      refine ⟨_, rfl, ?_⟩
      simpa [laterFunctions] using stores
  | succ remaining induction =>
      rw [laterFunctions_succ] at stores ⊢
      by_cases responds : Responds space ⟨bus, dev, BitVec.ofNat 3 i⟩
      · rw [if_pos responds] at stores ⊢
        rw [List.length_cons, Nat.add_right_comm] at stores
        rcases findPciDataFrom_of_responds targets remaining (by omega) stores
          responds with ⟨next, after, targetsNext, storesAfter, step⟩
        rw [if_neg (fun zero => absurd zero.1 (by omega))] at step
        rcases induction targetsNext (by omega) (by omega) storesAfter with
          ⟨last, ran, holds⟩
        refine ⟨last, step.trans ran, ?_⟩
        simpa using holds
      · rw [if_neg responds] at stores ⊢
        rcases findPciDataFrom_of_absent targets (dev.setWidth 8) remaining
          (by omega) responds with ⟨next, targetsNext, step⟩
        rcases induction targetsNext (by omega) (by omega) stores with
          ⟨last, ran, holds⟩
        exact ⟨last, step.trans ran, holds⟩

/-- The functions of a device are stored, function 0 first. -/
theorem findPciData_stores (wellFormed : WellFormed space) {pci : PciState}
    (bus : BitVec 8) (dev : BitVec 5)
    (stores : Stores pci.list devices
      ((deviceFunctions space pciFunctionMax bus dev).length + free)) :
    ∃ after,
      findPciData space bus (dev.setWidth 8) pci = some after ∧
        Stores after.list
          (((deviceFunctions space pciFunctionMax bus dev).map
            (describe space)).reverse ++ devices) free := by
  have initial :
      Targets
        (ConfigAccess.reg
          ⟨initialRegister bus (dev.setWidth 8), pci.configAddress⟩)
        ⟨bus, dev, 0#3⟩ := by
    refine ⟨rfl, rfl, ?_, rfl⟩
    simp [initialRegister]
  change ∃ after, findPciDataFrom space bus (dev.setWidth 8) (6 + 1) 0
    ⟨initialRegister bus (dev.setWidth 8), pci.configAddress⟩ pci.list =
      some after ∧ _
  by_cases responds : Responds space ⟨bus, dev, 0#3⟩
  · have functions :
        deviceFunctions space pciFunctionMax bus dev =
          ⟨bus, dev, 0#3⟩ ::
            if Multi space bus dev then laterFunctions space bus dev 1 6
            else [] :=
      if_pos responds
    rw [functions, List.length_cons, Nat.add_right_comm] at stores
    rcases findPciDataFrom_of_responds initial 6 (by omega) stores responds with
      ⟨next, middle, targets, holds, step⟩
    rw [functions, step]
    by_cases multi : Multi space bus dev
    · have multiFunction : isMultiFunction (space bus dev 0#3 3#6) = true :=
        (isMultiFunction_iff _).mpr multi
      rw [if_pos multi] at holds ⊢
      rw [if_neg (by simp [multiFunction])]
      rcases findPciDataFrom_later targets (by omega) (by omega) holds with
        ⟨after, ran, holdsAfter⟩
      refine ⟨after, ran, ?_⟩
      simpa using holdsAfter
    · have single : isMultiFunction (space bus dev 0#3 3#6) = false := by
        rw [← Bool.not_eq_true, isMultiFunction_iff]
        exact multi
      rw [if_neg multi] at holds ⊢
      rw [if_pos ⟨rfl, single⟩]
      exact ⟨_, rfl, by simpa using holds⟩
  · have functions : deviceFunctions space pciFunctionMax bus dev = [] :=
      if_neg responds
    have nothing : laterFunctions space bus dev 1 6 = [] := by
      rw [laterFunctions, List.filter_eq_nil_iff]
      intro place member answers
      rcases List.mem_map.mp member with ⟨i, _, rfl⟩
      exact responds (wellFormed bus dev _ (of_decide_eq_true answers))
    rcases findPciDataFrom_of_absent initial (dev.setWidth 8) 6 (by omega)
      responds with ⟨next, targets, step⟩
    rw [functions, List.length_nil] at stores
    rw [functions, step]
    have laterStores : Stores pci.list devices
        ((laterFunctions space bus dev 1 6).length + free) := by
      rw [nothing]
      exact stores
    rcases findPciDataFrom_later targets (by omega) (by omega) laterStores with
      ⟨after, ran, holds⟩
    rw [nothing] at holds
    exact ⟨after, ran, holds⟩

/-- A loop stores what its iterations store, one after the other. -/
theorem foldlM_stores {body : PciState → Nat → Option PciState}
    {found : Nat → List PciDevice} {items : List Nat}
    (step : ∀ item ∈ items, ∀ (pci : PciState) (devices : List PciDevice)
      (free : Nat),
      Stores pci.list devices ((found item).length + free) →
        ∃ after, body pci item = some after ∧
          Stores after.list ((found item).reverse ++ devices) free)
    {pci : PciState} {devices : List PciDevice} {free : Nat}
    (stores : Stores pci.list devices
      ((items.flatMap found).length + free)) :
    ∃ after, items.foldlM body pci = some after ∧
      Stores after.list ((items.flatMap found).reverse ++ devices) free := by
  induction items generalizing pci devices with
  | nil => exact ⟨pci, rfl, by simpa using stores⟩
  | cons item rest induction =>
      rw [List.flatMap_cons, List.length_append, Nat.add_assoc] at stores
      rcases step item (by simp) pci devices _ stores with
        ⟨middle, ran, holds⟩
      have later := induction
        (fun other member => step other (List.mem_cons_of_mem item member))
        holds
      rcases later with ⟨after, ranRest, holdsAfter⟩
      refine ⟨after, ?_, ?_⟩
      · rw [List.foldlM_cons, ran]
        exact ranRest
      · simpa using holdsAfter

/-- The scan stores the functions below its bounds. -/
theorem findPciDevice_stores (wellFormed : WellFormed space) {pci : PciState}
    (stores : Stores pci.list devices
      ((functionsBelow space pciBusMax pciDeviceMax pciFunctionMax).length +
        free)) :
    ∃ after, findPciDevice space pci = some after ∧
      Stores after.list
        (((functionsBelow space pciBusMax pciDeviceMax pciFunctionMax).map
          (describe space)).reverse ++ devices) free := by
  rw [← List.length_map (describe space)] at stores
  simp only [functionsBelow, List.map_flatMap] at stores ⊢
  apply foldlM_stores _ stores
  intro bus _ pci devices free busStores
  apply foldlM_stores _ busStores
  intro dev member pci devices free devStores
  rw [List.length_map] at devStores
  have small : dev < 31 := List.mem_range.mp member
  have number : BitVec.ofNat 8 dev = (BitVec.ofNat 5 dev).setWidth 8 := by
    apply BitVec.eq_of_toNat_eq
    simp only [BitVec.toNat_ofNat, BitVec.toNat_setWidth]
    omega
  rw [number]
  exact findPciData_stores wellFormed (BitVec.ofNat 8 bus)
    (BitVec.ofNat 5 dev) devStores

end Steps

end MagicalOs.Devices.PciScan
