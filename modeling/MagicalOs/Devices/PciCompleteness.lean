import MagicalOs.Devices.PciScan

/-!
# Which functions the PCI scan misses

After the scan, the list should have one node for every function 0 which
answers, and for every other function of a multi-function device which does.
The scan stops before the last bus, device and function number, so the list is
complete exactly when no such function has one of these numbers.
-/

namespace MagicalOs.Devices.PciCompleteness

open MagicalOs.Library.BitField
open MagicalOs.Library.ByteMemory
open MagicalOs.Library.SentinelList
open MagicalOs.Kernel.HeapLists
open MagicalOs.Kernel.HeapPages
open MagicalOs.Kernel.KernelHeap
open MagicalOs.Devices.Pci
open MagicalOs.Devices.PciScan

/-! ## What is expected of the list -/

/-- The functions for which there should be a node. -/
def Expected (space : ConfigSpace) (place : Location) : Prop :=
  Responds space place ∧
    (place.func = 0#3 ∨ Multi space place.bus place.dev)

/-- The vendor, the device number and the function number are as asked for. -/
def Matches (device : PciDevice) (vender devid : Half) (function : Byte) :
    Prop :=
  device.vender = vender ∧ device.devid = devid ∧ device.func = function

/-- The list is what it should be after the scan. -/
structure Complete (space : ConfigSpace) (list : DeviceList)
    (nodes : List Pointer) : Prop where
  listed : Listed list.next .head nodes
  each : ∀ place, Expected space place →
    ∃! p, p ∈ nodes ∧ list.data p = describe space place
  only : ∀ p ∈ nodes, ∃ place, Expected space place ∧
    list.data p = describe space place
  found : ∀ (vender devid : Half) (function : Byte), ∃ bound,
    ∀ iterations, bound ≤ iterations → ∃ result,
      getPciDevice list vender devid function iterations = some result ∧
        (∀ p ∈ result, p ∈ nodes ∧
          Matches (list.data p) vender devid function) ∧
        (result.isSome ↔ ∃ place, Expected space place ∧
          Matches (describe space place) vender devid function)

/-- All numbers of the function are below the last ones. -/
def BelowLast (place : Location) : Prop :=
  place.bus ≠ 255#8 ∧ place.dev ≠ 31#5 ∧ place.func ≠ 7#3

/-! ## The functions below the bounds -/

section Bounds

variable {space : ConfigSpace} {place : Location} {bus : BitVec 8}
  {dev : BitVec 5} {first count : Nat}

theorem mem_laterFunctions (small : first + count ≤ 8) :
    place ∈ laterFunctions space bus dev first count ↔
      Responds space place ∧ place.bus = bus ∧ place.dev = dev ∧
        first ≤ place.func.toNat ∧ place.func.toNat < first + count := by
  rw [laterFunctions, List.mem_filter, List.mem_map, decide_eq_true_iff]
  constructor
  · rintro ⟨⟨i, member, rfl⟩, responds⟩
    rcases List.mem_range'_1.mp member with ⟨lower, upper⟩
    have number : (BitVec.ofNat 3 i).toNat = i := by
      rw [BitVec.toNat_ofNat, Nat.mod_eq_of_lt (by omega)]
    refine ⟨responds, rfl, rfl, ?_⟩
    rw [number]
    exact ⟨lower, upper⟩
  · rintro ⟨responds, rfl, rfl, lower, upper⟩
    refine ⟨⟨place.func.toNat, ?_, ?_⟩, responds⟩
    · exact List.mem_range'_1.mpr ⟨lower, upper⟩
    · rw [BitVec.ofNat_toNat, BitVec.setWidth_eq]

theorem nodup_laterFunctions (small : first + count ≤ 8) :
    (laterFunctions space bus dev first count).Nodup := by
  apply List.Nodup.filter
  refine List.Nodup.map_on ?_ List.nodup_range'
  intro i member j otherMember equal
  rcases List.mem_range'_1.mp member with ⟨_, upper⟩
  rcases List.mem_range'_1.mp otherMember with ⟨_, otherUpper⟩
  have same := congrArg (fun place => place.func.toNat) equal
  simp only [BitVec.toNat_ofNat] at same
  omega

/-- The functions of one device which should be listed. -/
theorem mem_deviceFunctions {limit : Nat} (positive : 0 < limit)
    (small : limit ≤ 8) (wellFormed : WellFormed space) :
    place ∈ deviceFunctions space limit bus dev ↔
      Expected space place ∧ place.bus = bus ∧ place.dev = dev ∧
        place.func.toNat < limit := by
  have isZero : place.func.toNat = 0 ↔ place.func = 0#3 := by
    rw [← BitVec.toNat_inj]
    rfl
  rw [deviceFunctions]
  by_cases responds : Responds space ⟨bus, dev, 0#3⟩
  · rw [if_pos responds, List.mem_cons]
    constructor
    · rintro (rfl | later)
      · exact ⟨⟨responds, .inl rfl⟩, rfl, rfl, positive⟩
      · by_cases multi : Multi space bus dev
        · rw [if_pos multi, mem_laterFunctions (by omega)] at later
          rcases later with ⟨answers, rfl, rfl, _, upper⟩
          exact ⟨⟨answers, .inr multi⟩, rfl, rfl, by omega⟩
        · rw [if_neg multi] at later
          cases later
    · rintro ⟨⟨answers, kind⟩, rfl, rfl, upper⟩
      by_cases first : place.func = 0#3
      · left
        rw [← first]
      · right
        rw [if_pos (kind.resolve_left first), mem_laterFunctions (by omega)]
        have nonzero := fun equal => first (isZero.mp equal)
        exact ⟨answers, rfl, rfl, Nat.pos_of_ne_zero nonzero, by omega⟩
  · rw [if_neg responds]
    constructor
    · intro member
      cases member
    · rintro ⟨⟨answers, _⟩, rfl, rfl, _⟩
      exact absurd (wellFormed _ _ _ answers) responds

theorem nodup_deviceFunctions {limit : Nat} (small : limit ≤ 8) :
    (deviceFunctions space limit bus dev).Nodup := by
  rw [deviceFunctions]
  by_cases responds : Responds space ⟨bus, dev, 0#3⟩
  · rw [if_pos responds]
    by_cases multi : Multi space bus dev
    · by_cases positive : 0 < limit
      · rw [if_pos multi, List.nodup_cons, mem_laterFunctions (by omega)]
        refine ⟨?_, nodup_laterFunctions (by omega)⟩
        rintro ⟨_, _, _, lower, _⟩
        exact Nat.not_succ_le_zero 0 lower
      · have none : limit - 1 = 0 := by omega
        simp [none, multi, laterFunctions]
    · simp [multi]
  · simp [responds]

/-- The functions below the bounds which should be listed. -/
theorem mem_functionsBelow {buses devices functions : Nat}
    (positive : 0 < functions) (busesSmall : buses ≤ 256)
    (devicesSmall : devices ≤ 32) (small : functions ≤ 8)
    (wellFormed : WellFormed space) :
    place ∈ functionsBelow space buses devices functions ↔
      Expected space place ∧ place.bus.toNat < buses ∧
        place.dev.toNat < devices ∧ place.func.toNat < functions := by
  rw [functionsBelow]
  simp only [List.mem_flatMap, List.mem_range,
    mem_deviceFunctions positive small wellFormed]
  constructor
  · rintro ⟨bus, busSmall, dev, devSmall, expected, isBus, isDev, upper⟩
    have busNumber := congrArg BitVec.toNat isBus
    have devNumber := congrArg BitVec.toNat isDev
    rw [BitVec.toNat_ofNat] at busNumber devNumber
    exact ⟨expected, by omega, by omega, upper⟩
  · rintro ⟨expected, busSmall, devSmall, upper⟩
    refine ⟨place.bus.toNat, busSmall, place.dev.toNat, devSmall, expected,
      ?_, ?_, upper⟩
    · rw [BitVec.ofNat_toNat, BitVec.setWidth_eq]
    · rw [BitVec.ofNat_toNat, BitVec.setWidth_eq]

theorem nodup_functionsBelow {buses devices functions : Nat}
    (positive : 0 < functions) (busesSmall : buses ≤ 256)
    (devicesSmall : devices ≤ 32) (small : functions ≤ 8)
    (wellFormed : WellFormed space) :
    (functionsBelow space buses devices functions).Nodup := by
  have devicesOf (bus : Nat) :
      ((List.range devices).flatMap fun dev =>
        deviceFunctions space functions (BitVec.ofNat 8 bus)
          (BitVec.ofNat 5 dev)).Nodup := by
    refine List.nodup_flatMap.mpr
      ⟨fun dev _ => nodup_deviceFunctions small, ?_⟩
    apply List.nodup_range.imp_of_mem
    intro dev other devMem otherMem different place left right
    have devSmall := List.mem_range.mp devMem
    have otherSmall := List.mem_range.mp otherMem
    rcases (mem_deviceFunctions positive small wellFormed).mp left with
      ⟨_, _, isDev, _⟩
    rcases (mem_deviceFunctions positive small wellFormed).mp right with
      ⟨_, _, isOther, _⟩
    have same := congrArg BitVec.toNat (isDev.symm.trans isOther)
    simp only [BitVec.toNat_ofNat] at same
    omega
  refine List.nodup_flatMap.mpr ⟨fun bus _ => devicesOf bus, ?_⟩
  apply List.nodup_range.imp_of_mem
  intro bus other busMem otherMem different place left right
  have busSmall := List.mem_range.mp busMem
  have otherSmall := List.mem_range.mp otherMem
  rcases List.mem_flatMap.mp left with ⟨dev, _, leftMem⟩
  rcases List.mem_flatMap.mp right with ⟨otherDev, _, rightMem⟩
  rcases (mem_deviceFunctions positive small wellFormed).mp leftMem with
    ⟨_, isBus, _, _⟩
  rcases (mem_deviceFunctions positive small wellFormed).mp rightMem with
    ⟨_, isOther, _, _⟩
  have same := congrArg BitVec.toNat (isBus.symm.trans isOther)
  simp only [BitVec.toNat_ofNat] at same
  omega

end Bounds

/-! ## Complete lists -/

/-- The functions which the scan meets. -/
def scanned (space : ConfigSpace) : List Location :=
  functionsBelow space pciBusMax pciDeviceMax pciFunctionMax

section Complete

variable {space : ConfigSpace} {list : DeviceList} {nodes : List Pointer}

theorem mem_scanned_iff (wellFormed : WellFormed space) {place : Location} :
    place ∈ scanned space ↔ Expected space place ∧ BelowLast place := by
  have bus : place.bus ≠ 255#8 ↔ place.bus.toNat < 255 := by
    have upper := place.bus.isLt
    rw [Ne, ← BitVec.toNat_inj]
    change ¬place.bus.toNat = 255 ↔ _
    omega
  have dev : place.dev ≠ 31#5 ↔ place.dev.toNat < 31 := by
    have upper := place.dev.isLt
    rw [Ne, ← BitVec.toNat_inj]
    change ¬place.dev.toNat = 31 ↔ _
    omega
  have func : place.func ≠ 7#3 ↔ place.func.toNat < 7 := by
    have upper := place.func.isLt
    rw [Ne, ← BitVec.toNat_inj]
    change ¬place.func.toNat = 7 ↔ _
    omega
  rw [scanned, mem_functionsBelow (by decide) (by decide) (by decide)
    (by decide) wellFormed, BelowLast, bus, dev, func]
  rfl

/-- A list which holds all expected functions once is complete. -/
theorem complete_of_all (wellFormed : WellFormed space)
    (listed : Listed list.next .head nodes)
    (holds : nodes.map list.data =
      ((scanned space).map (describe space)).reverse)
    (below : ∀ place, Expected space place → BelowLast place) :
    Complete space list nodes := by
  have member {device : PciDevice} :
      device ∈ nodes.map list.data ↔
        ∃ place, Expected space place ∧ device = describe space place := by
    rw [holds, List.mem_reverse, List.mem_map]
    constructor
    · rintro ⟨place, place_mem, rfl⟩
      exact ⟨place, ((mem_scanned_iff wellFormed).mp place_mem).1, rfl⟩
    · rintro ⟨place, expected, rfl⟩
      exact ⟨place,
        (mem_scanned_iff wellFormed).mpr ⟨expected, below place expected⟩, rfl⟩
  have distinct : (nodes.map list.data).Nodup := by
    rw [holds, List.nodup_reverse]
    refine List.Nodup.map_on ?_ ?_
    · intro place _ other _ same
      exact describe_inj same
    · exact nodup_functionsBelow (by decide) (by decide) (by decide)
        (by decide) wellFormed
  constructor
  · exact listed
  · intro place expected
    rcases List.mem_map.mp (member.mpr ⟨place, expected, rfl⟩) with
      ⟨p, inNodes, equal⟩
    refine ⟨p, ⟨inNodes, equal⟩, ?_⟩
    rintro other ⟨otherIn, otherEqual⟩
    exact List.inj_on_of_nodup_map distinct otherIn inNodes
      (otherEqual.trans equal.symm)
  · intro p inNodes
    exact member.mp (List.mem_map_of_mem inNodes)
  · intro vender devid function
    refine ⟨nodes.length + 1, fun iterations enough => ?_⟩
    refine ⟨_, listed.search (by omega), ?_, ?_⟩
    · intro p isFound
      have passed := List.find?_some isFound
      exact ⟨List.mem_of_find?_eq_some isFound, by simpa [Matches] using passed⟩
    · rw [List.find?_isSome]
      constructor
      · rintro ⟨p, inNodes, passed⟩
        rcases member.mp (List.mem_map_of_mem inNodes) with
          ⟨place, expected, equal⟩
        refine ⟨place, expected, ?_⟩
        rw [← equal]
        simpa [Matches] using passed
      · rintro ⟨place, expected, passed⟩
        rcases List.mem_map.mp (member.mpr ⟨place, expected, rfl⟩) with
          ⟨p, inNodes, equal⟩
        refine ⟨p, inNodes, ?_⟩
        rw [← equal] at passed
        simpa [Matches] using passed

/-- The scanned functions are all which a complete list can hold. -/
theorem below_of_complete (wellFormed : WellFormed space)
    (listed : Listed list.next .head nodes)
    (holds : nodes.map list.data =
      ((scanned space).map (describe space)).reverse)
    {others : List Pointer} (complete : Complete space list others) :
    ∀ place, Expected space place → BelowLast place := by
  intro place expected
  rcases complete.each place expected with ⟨p, ⟨inNodes, equal⟩, _⟩
  rw [complete.listed.unique listed] at inNodes
  have inScan : describe space place ∈ nodes.map list.data := by
    rw [← equal]
    exact List.mem_map_of_mem inNodes
  rw [holds, List.mem_reverse] at inScan
  rcases List.mem_map.mp inScan with ⟨other, member, same⟩
  rw [← describe_inj same]
  exact ((mem_scanned_iff wellFormed).mp member).2

/-- The list after the scan of a space for which there is room. -/
theorem findPciDevice_scanned (wellFormed : WellFormed space) {heap : Heap}
    (valid : Valid heap)
    (enough : (scanned space).length ≤ room heap sizeofDeviceList) :
    ∃ pci nodes, findPciDevice space (bootPci heap) = some pci ∧
      Listed pci.list.next .head nodes ∧
      nodes.map pci.list.data =
        ((scanned space).map (describe space)).reverse := by
  rcases Nat.exists_eq_add_of_le enough with ⟨free, isRoom⟩
  have initial :
      Stores (bootPci heap).list [] ((scanned space).length + free) :=
    ⟨[], .empty valid rfl, rfl, isRoom⟩
  rcases findPciDevice_stores wellFormed initial with
    ⟨pci, ran, nodes, kept, holds, _⟩
  rw [List.append_nil] at holds
  exact ⟨pci, nodes, ran, kept.listed, holds⟩

end Complete

/--
When `kmalloc` has room for the functions it meets, the scan returns, and the
list is complete exactly when no function has a last number.
-/
theorem complete_iff_belowLast {space : ConfigSpace}
    (wellFormed : WellFormed space) {heap : Heap} (valid : Valid heap)
    (enough : (scanned space).length ≤ room heap sizeofDeviceList) :
    ∃ pci, findPciDevice space (bootPci heap) = some pci ∧
      ((∃ nodes, Complete space pci.list nodes) ↔
        ∀ place, Expected space place → BelowLast place) := by
  rcases findPciDevice_scanned wellFormed valid enough with
    ⟨pci, nodes, ran, listed, holds⟩
  refine ⟨pci, ran, ?_⟩
  constructor
  · rintro ⟨others, complete⟩
    exact below_of_complete wellFormed listed holds complete
  · intro below
    exact ⟨nodes, complete_of_all wellFormed listed holds below⟩

/-! ## A single function -/

/-- A host bridge at device 0 of the bus, and nothing else. -/
def hostBridge (bus : BitVec 8) : ConfigSpace :=
  fun otherBus dev func number =>
    if otherBus = bus ∧ dev = 0#5 ∧ func = 0#3 then
      if number = 0#6 then 0x12378086#32 else 0x06000002#32
    else
      0xffffffff#32

section HostBridge

variable {bus : BitVec 8}

theorem responds_hostBridge {place : Location} :
    Responds (hostBridge bus) place ↔ place = ⟨bus, 0#5, 0#3⟩ := by
  rcases place with ⟨otherBus, dev, func⟩
  by_cases here : otherBus = bus ∧ dev = 0#5 ∧ func = 0#3
  · simp [Responds, hostBridge, here]
  · simp [Responds, hostBridge, here]

theorem wellFormed_hostBridge : WellFormed (hostBridge bus) := by
  intro otherBus dev func responds
  rw [responds_hostBridge] at responds ⊢
  cases responds
  rfl

/-- There is room for the bridge. -/
theorem enough_hostBridge :
    (scanned (hostBridge bus)).length ≤ room emptyHeap sizeofDeviceList := by
  have nodup : (scanned (hostBridge bus)).Nodup :=
    nodup_functionsBelow (by decide) (by decide) (by decide) (by decide)
      wellFormed_hostBridge
  have subset : scanned (hostBridge bus) ⊆ [⟨bus, 0#5, 0#3⟩] := by
    intro place member
    have expected := ((mem_scanned_iff wellFormed_hostBridge).mp member).1
    rw [responds_hostBridge.mp expected.1]
    exact List.mem_singleton_self _
  have single := (List.subperm_of_subset nodup subset).length_le
  have fits : 1 ≤ pageSize / sizeofDeviceList.toNat := by decide
  rw [room_emptyHeap]
  exact Nat.le_trans single fits

end HostBridge

/-- A host bridge on the first bus. -/
theorem complete_hostBridge :
    ∃ pci, findPciDevice (hostBridge 0#8) (bootPci emptyHeap) = some pci ∧
      ((∃ nodes, Complete (hostBridge 0#8) pci.list nodes) ↔
        ∀ place, Expected (hostBridge 0#8) place → BelowLast place) :=
  complete_iff_belowLast wellFormed_hostBridge (valid_static _)
    enough_hostBridge

/-- A host bridge on the last bus is not found. -/
theorem lastBus_not_complete :
    ¬∀ (space : ConfigSpace) (heap : Heap), WellFormed space → Valid heap →
      (scanned space).length ≤ room heap sizeofDeviceList →
        ∃ pci nodes, findPciDevice space (bootPci heap) = some pci ∧
          Complete space pci.list nodes := by
  intro all
  rcases all (hostBridge 255#8) emptyHeap wellFormed_hostBridge
    (valid_static _) enough_hostBridge with ⟨pci, nodes, ran, complete⟩
  rcases findPciDevice_scanned wellFormed_hostBridge (valid_static _)
    enough_hostBridge with ⟨other, others, ranToo, listed, holds⟩
  have same : pci = other := Option.some.inj (ran.symm.trans ranToo)
  rw [same] at complete
  have expected : Expected (hostBridge 255#8) ⟨255#8, 0#5, 0#3⟩ :=
    ⟨responds_hostBridge.mpr rfl, .inl rfl⟩
  have below := below_of_complete wellFormed_hostBridge listed holds complete
    _ expected
  exact below.1 rfl

end MagicalOs.Devices.PciCompleteness
