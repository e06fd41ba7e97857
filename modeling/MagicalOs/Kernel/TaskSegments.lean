import MagicalOs.Kernel.QueueInvariant

/-!
# Task state segments

The owners of task state segments are numbered from the kernel task on, so the
number of a task is its `task_id`, and its descriptor has the index
`task_id + 3`.  Only the kernel task and the first two tasks have a descriptor
of their own: the third one is installed over the user code segment, and later
ones over the user data segment or behind the table.

`Installed` collects what task creation fixes, in the task structures and in
the descriptor table, and `Runs` says which owner the processor runs.
-/

namespace MagicalOs.Kernel.TaskSegments

open MagicalOs.Library.BitField
open MagicalOs.Library.ByteMemory
open MagicalOs.Library.ByteMemory.Memory
open MagicalOs.Kernel.Descriptors
open MagicalOs.Kernel.Descriptors.SegmentDescriptor
open MagicalOs.Kernel.HeapPages
open MagicalOs.Kernel.MachineState
open MagicalOs.Kernel.TaskStructure
open MagicalOs.Kernel.TaskCreation
open MagicalOs.Kernel.SchedQueues
open MagicalOs.Kernel.Scheduler
open MagicalOs.Kernel.TaskQueues
open MagicalOs.Kernel.SchedTraversal
open MagicalOs.Kernel.Dispatch
open MagicalOs.Kernel.KernelRuns
open MagicalOs.Kernel.QueueInvariant

/-- The task state segment of a task, or of the kernel task for zero. -/
def tssOf (layout : Layout) (task : Nat) : Nat :=
  if task = 0 then layout.kernTaskTss else tss task

/-- The selector of descriptor `number + 3`. -/
def slotSelector (number : Nat) : Half := BitVec.ofNat 16 (8 * (number + 3))

/-- The owner of task state segment `number`. -/
def owner (created : List Nat) (number : Nat) : Option Nat :=
  (0 :: created)[number]?

/-- What task creation has fixed for the first owners, for good. -/
structure Installed (layout : Layout) (machine : Machine)
    (created : List Nat) : Prop where
  counter : machine.taskIdCounter = BitVec.ofNat 16 (created.length + 1)
  taskId : ∀ index, ∀ task ∈ created[index]?,
    TaskStructure.taskId machine.mem task = BitVec.ofNat 16 (index + 1)
  selector : ∀ index, ∀ task ∈ created[index]?,
    contextSwitchSelector machine.mem task =
      (selectorByte (BitVec.ofNat 16 (index + 1))).setWidth 16
  system : ∀ number ≤ 2, (machine.gdt (number + 3)).s = 0#1
  low : ∀ idx < 3, (machine.gdt idx).s = 1#1 ∨ (machine.gdt idx).p = 0#1
  user : ∀ idx, idx = 6 ∨ idx = 7 → (machine.gdt idx).s = 1#1
  absent : ∀ number ≤ 2, owner created number = none →
    (machine.gdt (number + 3)).p = 0#1
  present : ∀ number ≤ 2, ∀ task ∈ owner created number,
    (machine.gdt (number + 3)).p = 1#1
  base : ∀ number ≤ 2, ∀ task ∈ owner created number,
    (machine.gdt (number + 3)).base = BitVec.ofNat 32 (tssOf layout task)

/-- The processor runs owner `number`, and the others are available. -/
structure Runs (layout : Layout) (machine : Machine) (created : List Nat)
    (number : Nat) (task : Nat) : Prop where
  small : number ≤ 2
  owned : owner created number = some task
  register : machine.cpu.taskRegister = slotSelector number
  running : machine.cpu.runningTss = BitVec.ofNat 32 (tssOf layout task)
  switched : machine.cpu.switchFailed = false
  available : ∀ other ≤ 2, other ≠ number → owner created other ≠ none →
    (machine.gdt (other + 3)).type = 9#4

/-! ## Far jumps between the first owners -/

section Jumps

variable {layout : Layout} {machine after : Machine} {created : List Nat}
  {number target task following : Nat}

@[simp]
theorem s_setTssType (gdt : DescriptorTable) (idx other : Nat)
    (type : BitVec 4) : (setTssType gdt idx type other).s = (gdt other).s := by
  by_cases same : other = idx
  · subst same
    simp [setTssType, s, field_setField_of_disjoint]
  · simp [setTssType, same]

@[simp]
theorem p_setTssType (gdt : DescriptorTable) (idx other : Nat)
    (type : BitVec 4) : (setTssType gdt idx type other).p = (gdt other).p := by
  by_cases same : other = idx
  · subst same
    simp [setTssType, p, field_setField_of_disjoint]
  · simp [setTssType, same]

@[simp]
theorem base_setTssType (gdt : DescriptorTable) (idx other : Nat)
    (type : BitVec 4) :
    (setTssType gdt idx type other).base = (gdt other).base := by
  by_cases same : other = idx
  · subst same
    simp [setTssType, SegmentDescriptor.base, base0, base1, base2,
      field_setField_of_disjoint]
  · simp [setTssType, same]

@[simp]
theorem type_setTssType_self (gdt : DescriptorTable) (idx : Nat)
    (type : BitVec 4) : (setTssType gdt idx type idx).type = type := by
  simp [setTssType, SegmentDescriptor.type]

theorem type_setTssType_of_ne (gdt : DescriptorTable) {idx other : Nat}
    (type : BitVec 4) (different : other ≠ idx) :
    (setTssType gdt idx type other).type = (gdt other).type := by
  simp [setTssType, different]

theorem slotSelector_index (small : number ≤ 2) :
    (slotSelector number).toNat / 8 = number + 3 := by
  rw [slotSelector, BitVec.toNat_ofNat]
  omega

/-- A far jump to another owner switches to its task state segment. -/
theorem Runs.ljmp (runs : Runs layout machine created number task)
    (installed : Installed layout machine created) (small : target ≤ 2)
    (owned : owner created target = some following)
    (different : target ≠ number) :
    ljmp machine.gdt machine.cpu (slotSelector target) =
      (setTssType (setTssType machine.gdt (number + 3) 9#4) (target + 3) 11#4,
        { taskRegister := slotSelector target
          runningTss := BitVec.ofNat 32 (tssOf layout following)
          switchFailed := false }) := by
  have available : (machine.gdt (target + 3)).IsAvailableTss :=
    ⟨installed.system target small,
      runs.available target small different (by simp [owned]),
      installed.present target small following owned⟩
  rw [Descriptors.ljmp, slotSelector_index small, runs.register,
    slotSelector_index runs.small, installed.base target small following owned]
  exact if_pos ⟨by rw [gdtSize]; omega, available⟩

/-- Afterwards the processor runs the owner it was switched to. -/
theorem Runs.switch (runs : Runs layout machine created number task)
    (installed : Installed layout machine created) (small : target ≤ 2)
    (owned : owner created target = some following)
    (different : target ≠ number)
    (switched : (after.gdt, after.cpu) =
      Descriptors.ljmp machine.gdt machine.cpu (slotSelector target)) :
    Runs layout after created target following := by
  rw [runs.ljmp installed small owned different] at switched
  have gdt := congrArg Prod.fst switched
  have cpu := congrArg Prod.snd switched
  simp only at gdt cpu
  constructor
  · exact small
  · exact owned
  · rw [cpu]
  · rw [cpu]
  · rw [cpu]
  · intro other otherSmall notTarget exists_
    rw [gdt, type_setTssType_of_ne _ _ (by omega)]
    by_cases isRunning : other = number
    · subst isRunning
      exact type_setTssType_self _ _ _
    · rw [type_setTssType_of_ne _ _ (by omega)]
      exact runs.available other otherSmall isRunning exists_

/-- A processor which is not touched runs the same owner. -/
theorem Runs.congr (runs : Runs layout machine created number task)
    (gdt : after.gdt = machine.gdt) (cpu : after.cpu = machine.cpu) :
    Runs layout after created number task where
  small := runs.small
  owned := runs.owned
  register := cpu ▸ runs.register
  running := cpu ▸ runs.running
  switched := cpu ▸ runs.switched
  available := gdt ▸ runs.available

end Jumps

/-! ## What scheduling leaves alone -/

section Installed

variable {layout : Layout} {machine after : Machine} {queues : Queues}
  {created : List Nat} {index number task : Nat}

/-- Descriptors which differ at most in whether they are busy. -/
def SameSegments (before after : DescriptorTable) : Prop :=
  ∀ idx, (after idx).s = (before idx).s ∧ (after idx).p = (before idx).p ∧
    (after idx).base = (before idx).base

theorem SameSegments.refl (gdt : DescriptorTable) : SameSegments gdt gdt :=
  fun _ => ⟨rfl, rfl, rfl⟩

theorem ljmp_sameSegments (gdt : DescriptorTable) (cpu : Cpu)
    (selector : Half) : SameSegments gdt (ljmp gdt cpu selector).1 := by
  intro idx
  rw [ljmp]
  split
  next => simp
  next => exact ⟨rfl, rfl, rfl⟩

theorem afterTurn_sameSegments (machine : Machine) (target : Option Nat) :
    SameSegments machine.gdt (afterTurn machine target).1 := by
  cases target with
  | none => exact .refl _
  | some task => exact ljmp_sameSegments _ _ _

theorem Installed.congr (installed : Installed layout machine created)
    (counter : after.taskIdCounter = machine.taskIdCounter)
    (taskIds : ∀ task ∈ created, AgreeOn after.mem machine.mem (task + 8) 2)
    (selectors : ∀ task ∈ created,
      AgreeOn after.mem machine.mem (task + 128) 2)
    (segments : SameSegments machine.gdt after.gdt) :
    Installed layout after created where
  counter := counter.trans installed.counter
  taskId := by
    intro index task member
    have known := installed.taskId index task member
    exact (taskIds task (List.mem_of_getElem? member)).load16.trans known
  selector := by
    intro index task member
    have known := installed.selector index task member
    exact (selectors task (List.mem_of_getElem? member)).load16.trans known
  system := by
    intro number small
    rw [(segments (number + 3)).1, installed.system number small]
  low := by
    intro idx small
    rw [(segments idx).1, (segments idx).2.1]
    exact installed.low idx small
  user := by
    intro idx isUser
    rw [(segments idx).1, installed.user idx isUser]
  absent := by
    intro number small none
    rw [(segments (number + 3)).2.1, installed.absent number small none]
  present := by
    intro number small task owned
    rw [(segments (number + 3)).2.1,
      installed.present number small task owned]
  base := by
    intro number small task owned
    rw [(segments (number + 3)).2.2, installed.base number small task owned]

/-- Scheduling does not write the fixed fields of any task. -/
theorem Installed.of_dynamicOnly
    (installed : Installed layout machine created)
    (pages : ∀ task ∈ queues.all, IsHeapPage task)
    (perm : queues.all.Perm created)
    (counter : after.taskIdCounter = machine.taskIdCounter)
    (mem : DynamicOnly machine.mem after.mem queues.all)
    (segments : SameSegments machine.gdt after.gdt) :
    Installed layout after created := by
  have created_page : ∀ task ∈ created, IsHeapPage task :=
    fun task member => pages task (perm.mem_iff.mpr member)
  refine installed.congr counter ?_ ?_ segments
  · exact fun task member =>
      mem.agreeOn pages (created_page task member) 8 2 (by omega) (by omega)
  · exact fun task member =>
      mem.agreeOn pages (created_page task member) 128 2 (by omega) (by omega)

@[simp]
theorem owner_zero (created : List Nat) : owner created 0 = some 0 := rfl

@[simp]
theorem owner_succ (created : List Nat) (index : Nat) :
    owner created (index + 1) = created[index]? := rfl

/-- An owner is entered through the selector of its descriptor. -/
theorem Installed.switchSelector_eq
    (installed : Installed layout machine created)
    (pages : ∀ task ∈ created, IsHeapPage task) (small : number ≤ 2)
    (owned : owner created number = some task) :
    switchSelector machine.mem task = slotSelector number := by
  cases number with
  | zero =>
      cases owned
      rfl
  | succ index =>
      have member : created[index]? = some task := owned
      have page := pages task (List.mem_of_getElem? member)
      rw [switchSelector, if_neg page.ne_null,
        installed.selector index task member]
      have cases_index : index = 0 ∨ index = 1 := by omega
      rcases cases_index with rfl | rfl
      · rfl
      · rfl

/-- Two owners with different numbers are different tasks. -/
theorem owner_injective (nodup : created.Nodup)
    (pages : ∀ task ∈ created, IsHeapPage task) {first second : Nat}
    (firstOwned : owner created first = some task)
    (secondOwned : owner created second = some task) : first = second := by
  have distinct : (0 :: created).Nodup :=
    List.nodup_cons.mpr ⟨fun member => (pages 0 member).ne_null rfl, nodup⟩
  have inList : first < (0 :: created).length :=
    (List.getElem?_eq_some_iff.mp firstOwned).1
  exact (List.getElem?_inj inList distinct).mp
    (firstOwned.trans secondOwned.symm)

theorem owner_page (pages : ∀ task ∈ created, IsHeapPage task)
    (owned : owner created number = some task) :
    task = 0 ∨ IsHeapPage task := by
  rcases List.mem_cons.mp (List.mem_of_getElem? owned) with isKernel | member
  · exact .inl isKernel
  · exact .inr (pages task member)

/-- Different owners have different task state segments. -/
theorem tssOf_injective {left right : Nat}
    (leftPage : left = 0 ∨ IsHeapPage left)
    (rightPage : right = 0 ∨ IsHeapPage right)
    (same : BitVec.ofNat 32 (tssOf layout left) =
      BitVec.ofNat 32 (tssOf layout right)) : left = right := by
  have image := layout.kernTaskTss_below
  have bound : ∀ task, task = 0 ∨ IsHeapPage task →
      tssOf layout task < 2 ^ 32 := by
    rintro task (rfl | page)
    · rw [tssOf, if_pos rfl]
      omega
    · have upper := page.upper
      rw [tssOf, if_neg page.ne_null, tss]
      omega
  have equal := congrArg BitVec.toNat same
  rw [BitVec.toNat_ofNat, BitVec.toNat_ofNat,
    Nat.mod_eq_of_lt (bound left leftPage),
    Nat.mod_eq_of_lt (bound right rightPage)] at equal
  rcases leftPage with rfl | leftHeap
  · rcases rightPage with rfl | rightHeap
    · rfl
    · have lower := rightHeap.lower
      rw [tssOf, tssOf, if_pos rfl, if_neg rightHeap.ne_null, tss] at equal
      omega
  · rcases rightPage with rfl | rightHeap
    · have lower := leftHeap.lower
      rw [tssOf, tssOf, if_pos rfl, if_neg leftHeap.ne_null, tss] at equal
      omega
    · rw [tssOf, tssOf, if_neg leftHeap.ne_null, if_neg rightHeap.ne_null,
        tss, tss] at equal
      omega

end Installed

section Reachable

variable {layout : Layout} {machine : Machine} {created : List Nat}

/-- A far jump can only reach the segment of one of the first owners. -/
theorem Installed.ljmp_running (installed : Installed layout machine created)
    (selector : Half) :
    (ljmp machine.gdt machine.cpu selector).2.runningTss =
        machine.cpu.runningTss ∨
      ∃ number ≤ 2, ∃ task, owner created number = some task ∧
        (ljmp machine.gdt machine.cpu selector).2.runningTss =
          BitVec.ofNat 32 (tssOf layout task) := by
  rw [ljmp]
  split
  next inTable =>
    right
    rcases inTable with ⟨bound, system, _, present⟩
    rw [gdtSize] at bound
    generalize selector.toNat / 8 = idx at *
    by_cases low : idx < 3
    · rcases installed.low idx low with isUser | isAbsent
      · rw [isUser] at system
        cases system
      · rw [isAbsent] at present
        cases present
    by_cases high : 5 < idx
    · rw [installed.user idx (by omega)] at system
      cases system
    · have slot : idx = idx - 3 + 3 := by omega
      cases owned : owner created (idx - 3) with
      | none =>
          rw [slot, installed.absent (idx - 3) (by omega) owned] at present
          cases present
      | some task =>
          refine ⟨idx - 3, by omega, task, owned, ?_⟩
          rw [← installed.base (idx - 3) (by omega) task owned, ← slot]
  next => exact .inl rfl

end Reachable

/-! ## Task creation -/

section Creation

variable {layout : Layout} {machine : Machine} {queues : Queues}
  {created : List Nat} {number task : Nat} {file : File}

/-- The number of tasks which have been created never wraps around. -/
theorem Installed.counter_toNat
    (installed : Installed layout machine created)
    (room : 4 * created.length ≤ maxHeapPages) :
    machine.taskIdCounter.toNat = created.length + 1 := by
  rw [maxHeapPages] at room
  rw [installed.counter, BitVec.toNat_ofNat]
  omega

theorem owner_append_of_le {new : Nat} (le : number ≤ created.length) :
    owner (created ++ [new]) number = owner created number := by
  rw [owner, owner, ← List.cons_append]
  refine List.getElem?_append_left ?_
  rw [List.length_cons]
  omega

theorem owner_append_length (new : Nat) :
    owner (created ++ [new]) (created.length + 1) = some new := by
  rw [owner_succ, List.getElem?_append_right (Nat.le_refl _), Nat.sub_self]
  rfl

theorem owner_le {known : List Nat} (owned : owner known number = some task) :
    number ≤ known.length := by
  have inList := (List.getElem?_eq_some_iff.mp owned).1
  rw [List.length_cons] at inList
  omega

/-- The descriptor of every other index is left alone. -/
theorem initialized_gdt_of_ne (idx : Nat)
    (different : idx ≠ tssIndex machine.taskIdCounter) :
    (initialized machine file).gdt idx = machine.gdt idx :=
  Function.update_of_ne different _ _

theorem initialized_gdt_self :
    (initialized machine file).gdt (tssIndex machine.taskIdCounter) =
      (machine.gdt (tssIndex machine.taskIdCounter)).install
        (BitVec.ofNat 32
          (tss (nextTaskPages machine.heapAllocTable).task))
        (BitVec.ofNat 32 sizeofTss) 3#8 :=
  Function.update_self _ _ _

theorem taskInit_gdt (free : 4 ≤ (freePages machine.heapAllocTable).card) :
    (taskInit machine file).gdt = (initialized machine file).gdt := by
  rw [taskInit_of_free free]
  rfl

/-- A creation installs one descriptor, behind those of the earlier tasks. -/
theorem taskInit_descriptor (installed : Installed layout machine created)
    (room : 4 * created.length ≤ maxHeapPages)
    (free : 4 ≤ (freePages machine.heapAllocTable).card) (file : File)
    (idx : Nat) :
    (taskInit machine file).gdt idx =
      if idx = created.length + 4 then
        (machine.gdt idx).install
          (BitVec.ofNat 32 (tss (nextTaskPages machine.heapAllocTable).task))
          (BitVec.ofNat 32 sizeofTss) 3#8
      else machine.gdt idx := by
  have slot : tssIndex machine.taskIdCounter = created.length + 4 := by
    rw [tssIndex, installed.counter_toNat room, gdtIdxOfs]
  rw [taskInit_gdt free]
  split
  next here =>
    rw [here, ← slot]
    exact initialized_gdt_self
  next elsewhere => exact initialized_gdt_of_ne idx (slot ▸ elsewhere)

/-- Putting the new task on the run queue writes links only. -/
theorem taskInit_agreeOn (holds : Invariant machine created queues)
    (free : 4 ≤ (freePages machine.heapAllocTable).card)
    (page : IsHeapPage task) (offset size : Nat) (lower : 8 ≤ offset)
    (upper : offset + size ≤ 4096) :
    AgreeOn (taskInit machine file).mem (initialized machine file).mem
      (task + offset) size := by
  refine agreeOn_of_linksOnly (holds.taskInit_linksOnly free) ?_ page offset
    size lower upper
  intro other member
  rcases List.mem_cons.mp member with rfl | ready
  · exact (nextTaskPages_distinct free).heapTask
  · exact holds.represents.run.pages other ready

/-- The fixed fields of an earlier task survive the creation of another. -/
theorem taskInit_agreeOn_old (holds : Invariant machine created queues)
    (free : 4 ≤ (freePages machine.heapAllocTable).card)
    (member : task ∈ created) (offset size : Nat) (lower : 8 ≤ offset)
    (upper : offset + size ≤ 4096) :
    AgreeOn (taskInit machine file).mem machine.mem (task + offset) size := by
  have page := holds.represents.pages task (holds.perm.mem_iff.mpr member)
  have below := holds.below task member
  exact (taskInit_agreeOn holds free page offset size lower upper).trans
    (holds.initialized_agreeOn free (by omega))

private theorem getElem?_append_singleton {index new : Nat}
    (found : task ∈ (created ++ [new])[index]?) :
    task ∈ created[index]? ∨ index = created.length ∧ task = new := by
  rcases Nat.lt_or_ge index created.length with old | notOld
  · rw [List.getElem?_append_left old] at found
    exact .inl found
  · have inList := (List.getElem?_eq_some_iff.mp found).1
    rw [List.length_append, List.length_singleton] at inList
    have last : index = created.length := by omega
    subst last
    rw [List.getElem?_append_right (Nat.le_refl _), Nat.sub_self] at found
    exact .inr ⟨rfl, (Option.some.inj found).symm⟩

/-- A half word which every creation fixes, for the old tasks and the new. -/
private theorem load16_taskInit (holds : Invariant machine created queues)
    (free : 4 ≤ (freePages machine.heapAllocTable).card)
    {value : Nat → Half} (offset : Nat) (lower : 8 ≤ offset)
    (upper : offset + 2 ≤ 4096)
    (old : ∀ index, ∀ task ∈ created[index]?,
      machine.mem.load16 (task + offset) = value index)
    (new : (initialized machine file).mem.load16
      ((nextTaskPages machine.heapAllocTable).task + offset) =
        value created.length) :
    ∀ index, ∀ task ∈
        (created ++ [(nextTaskPages machine.heapAllocTable).task])[index]?,
      (TaskCreation.taskInit machine file).mem.load16 (task + offset) =
        value index := by
  intro index task found
  rcases getElem?_append_singleton found with known | ⟨rfl, rfl⟩
  · have kept : AgreeOn (TaskCreation.taskInit machine file).mem machine.mem
        (task + offset) 2 :=
      taskInit_agreeOn_old holds free (List.mem_of_getElem? known) offset 2
        lower upper
    exact kept.load16.trans (old index task known)
  · have kept : AgreeOn (TaskCreation.taskInit machine file).mem
        (initialized machine file).mem
        ((nextTaskPages machine.heapAllocTable).task + offset) 2 :=
      taskInit_agreeOn holds free (nextTaskPages_distinct free).heapTask
        offset 2 lower upper
    exact kept.load16.trans new

/-- A creation fixes the fields and the descriptor of one more task. -/
theorem Installed.taskInit (installed : Installed layout machine created)
    (holds : Invariant machine created queues)
    (free : 4 ≤ (freePages machine.heapAllocTable).card) :
    Installed layout (TaskCreation.taskInit machine file)
      (created ++ [(nextTaskPages machine.heapAllocTable).task]) := by
  have newPage := (nextTaskPages_distinct free).heapTask
  have descriptor := taskInit_descriptor installed holds.room free file
  constructor
  · rw [taskInit_of_free free, List.length_append]
    change machine.taskIdCounter + 1#16 = _
    rw [installed.counter, ← BitVec.ofNat_add]
    rfl
  · refine load16_taskInit holds free 8 (by omega) (by omega)
      installed.taskId ?_
    rw [← installed.counter]
    exact initTaskMemory_taskId machine.mem
      (nextTaskPages machine.heapAllocTable) file machine.taskIdCounter
  · refine load16_taskInit holds free 128 (by omega) (by omega)
      installed.selector ?_
    rw [← installed.counter]
    exact initTaskMemory_selector machine.mem
      (nextTaskPages machine.heapAllocTable) file machine.taskIdCounter
  · intro number small
    rw [descriptor]
    split
    next => rw [s_install, installed.system number small]
    next => exact installed.system number small
  · intro idx small
    rw [descriptor, if_neg (by omega)]
    exact installed.low idx small
  · intro idx isUser
    rw [descriptor]
    split
    next => rw [s_install, installed.user idx isUser]
    next => exact installed.user idx isUser
  · intro number small none
    have beyond : created.length + 1 < number := by
      have outside := List.getElem?_eq_none_iff.mp none
      rw [List.length_cons, List.length_append, List.length_singleton]
        at outside
      omega
    rw [descriptor, if_neg (by omega)]
    refine installed.absent number small (List.getElem?_eq_none_iff.mpr ?_)
    rw [List.length_cons]
    omega
  · intro number small task owned
    have bound := owner_le owned
    rw [List.length_append, List.length_singleton] at bound
    rw [descriptor]
    split
    next => rw [p_install]
    next elsewhere =>
      rw [owner_append_of_le (by omega)] at owned
      exact installed.present number small task owned
  · intro number small task owned
    have bound := owner_le owned
    rw [List.length_append, List.length_singleton] at bound
    rw [descriptor]
    split
    next here =>
      have isNew : number = created.length + 1 := by omega
      rw [isNew, owner_append_length] at owned
      cases owned
      rw [base_install, tssOf, if_neg newPage.ne_null]
    next elsewhere =>
      rw [owner_append_of_le (by omega)] at owned
      exact installed.base number small task owned

/-- The new task is available, and the processor runs what it ran before. -/
theorem Runs.taskInit (runs : Runs layout machine created number task)
    (installed : Installed layout machine created)
    (room : 4 * created.length ≤ maxHeapPages)
    (free : 4 ≤ (freePages machine.heapAllocTable).card) :
    Runs layout (TaskCreation.taskInit machine file)
      (created ++ [(nextTaskPages machine.heapAllocTable).task]) number
      task := by
  have descriptor := taskInit_descriptor installed room free file
  have known := owner_le runs.owned
  have cpu : (TaskCreation.taskInit machine file).cpu = machine.cpu := by
    rw [taskInit_of_free free]
    rfl
  constructor
  · exact runs.small
  · rw [owner_append_of_le known]
    exact runs.owned
  · rw [cpu]
    exact runs.register
  · rw [cpu]
    exact runs.running
  · rw [cpu]
    exact runs.switched
  · intro other small different exists_
    rw [descriptor]
    split
    next => rw [type_install]
    next elsewhere =>
      rcases Option.ne_none_iff_exists'.mp exists_ with ⟨task, owned⟩
      have bound := owner_le owned
      rw [List.length_append, List.length_singleton] at bound
      rw [owner_append_of_le (by omega)] at owned
      exact runs.available other small different (by simp [owned])

end Creation

/-! ## The boot state -/

/-- The descriptor table once the kernel task runs. -/
theorem boot_gdt (layout : Layout) (mem : Memory) :
    (boot layout mem).gdt =
      setTssType
        (initGdt staticGdt 3 (BitVec.ofNat 32 layout.kernTaskTss)
          (BitVec.ofNat 32 sizeofTss) 0#8) 3 11#4 := rfl

/-- At boot only the kernel task owns a segment. -/
private theorem owner_nil {number task : Nat}
    (owned : owner [] number = some task) : number = 0 ∧ task = 0 := by
  cases number with
  | zero => exact ⟨rfl, (Option.some.inj owned).symm⟩
  | succ index => cases owned

theorem boot_installed (layout : Layout) (mem : Memory) :
    Installed layout (boot layout mem) [] := by
  have gdt := boot_gdt layout mem
  constructor
  · rfl
  · intro index task found
    cases found
  · intro index task found
    cases found
  · intro number small
    rw [gdt, s_setTssType]
    have range : number = 0 ∨ number = 1 ∨ number = 2 := by omega
    rcases range with rfl | rfl | rfl
    · rw [initGdt, Function.update_self, s_install]
      decide
    · rw [initGdt, Function.update_of_ne (by omega)]
      decide
    · rw [initGdt, Function.update_of_ne (by omega)]
      decide
  · intro idx small
    rw [gdt, s_setTssType, p_setTssType, initGdt,
      Function.update_of_ne (by omega)]
    have range : idx = 0 ∨ idx = 1 ∨ idx = 2 := by omega
    rcases range with rfl | rfl | rfl
    · decide
    · decide
    · decide
  · intro idx isUser
    rw [gdt, s_setTssType, initGdt, Function.update_of_ne (by omega)]
    rcases isUser with rfl | rfl
    · decide
    · decide
  · intro number small none
    have range : number = 1 ∨ number = 2 := by
      have outside := List.getElem?_eq_none_iff.mp none
      rw [List.length_singleton] at outside
      omega
    rw [gdt, p_setTssType, initGdt, Function.update_of_ne (by omega)]
    rcases range with rfl | rfl
    · decide
    · decide
  · intro number small task owned
    rcases owner_nil owned with ⟨rfl, rfl⟩
    rw [gdt, p_setTssType, initGdt, Function.update_self, p_install]
  · intro number small task owned
    rcases owner_nil owned with ⟨rfl, rfl⟩
    rw [gdt, base_setTssType, initGdt, Function.update_self, base_install,
      tssOf, if_pos rfl]

/-- The processor starts on the kernel task. -/
theorem boot_runs (layout : Layout) (mem : Memory) :
    Runs layout (boot layout mem) [] 0 0 := by
  refine ⟨by omega, rfl, rfl, ?_, rfl, ?_⟩
  · change (initGdt staticGdt 3 (BitVec.ofNat 32 layout.kernTaskTss)
      (BitVec.ofNat 32 sizeofTss) 0#8 3).base = _
    rw [initGdt, Function.update_self, base_install]
    rfl
  · intro other small different exists_
    rcases Option.ne_none_iff_exists'.mp exists_ with ⟨task, owned⟩
    exact absurd (owner_nil owned).1 different

end MagicalOs.Kernel.TaskSegments
