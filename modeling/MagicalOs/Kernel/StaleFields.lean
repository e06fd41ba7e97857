import MagicalOs.Kernel.CreationStores

/-!
# What a new task inherits

`mem_alloc` returns pages as they were left by their previous owners, and
`task_init` assigns some fields of `struct task` only.  Two creations from
states which differ in the new pages are compared here: the fields which are
assigned are equal afterwards, and the others are those of the old contents.
-/

namespace MagicalOs.Kernel.StaleFields

open MagicalOs.Library.BitField
open MagicalOs.Library.ByteMemory
open MagicalOs.Library.ByteMemory.Memory
open MagicalOs.Kernel.HeapPages
open MagicalOs.Kernel.MachineState
open MagicalOs.Kernel.TaskStructure
open MagicalOs.Kernel.TaskCreation
open MagicalOs.Kernel.SchedQueues
open MagicalOs.Kernel.HeapRuns
open MagicalOs.Kernel.TaskIsolation
open MagicalOs.Kernel.AddressSpaces
open MagicalOs.Kernel.CreationStores

/-! ## The fields -/

/-- The fields which `task_init` does not assign. -/
structure UnsetFields where
  eax : Word
  ecx : Word
  edx : Word
  ebx : Word
  ebp : Word
  esi : Word
  edi : Word
  ldt : Half
  trace : BitVec 1
  ioBitmapBase : Half
  taskSwitchedInTimeSlice : Byte
  wakeupAfterMsec : Word
  wakeupAfterEvent : Byte
  deriving DecidableEq

/-- The fields which it assigns, and the links of the run queue. -/
structure AssignedFields where
  prev : Nat
  next : Nat
  taskId : Half
  esp0 : Word
  ss0 : Half
  cr3 : Word
  eip : Word
  eflags : Word
  esp : Word
  es : Half
  cs : Half
  ss : Half
  ds : Half
  fs : Half
  gs : Half
  contextSwitch : Nat
  contextSwitchFunc : List Byte
  deriving DecidableEq

/--
What the processor and the scheduler read of a task structure.  A far jump to
the segment loads the registers, the table selectors and the trace bit; the
stack of ring 0 and the port bitmap are read while the task runs.
-/
structure ReadFields where
  assigned : AssignedFields
  unset : UnsetFields
  deriving DecidableEq

def unsetFields (mem : Memory) (task : Nat) : UnsetFields where
  eax := mem.load32 (tss task + 40)
  ecx := mem.load32 (tss task + 44)
  edx := mem.load32 (tss task + 48)
  ebx := mem.load32 (tss task + 52)
  ebp := mem.load32 (tss task + 60)
  esi := mem.load32 (tss task + 64)
  edi := mem.load32 (tss task + 68)
  ldt := mem.load16 (tss task + 96)
  trace := field (mem.load16 (tss task + 100)) 0 1
  ioBitmapBase := mem.load16 (tss task + 102)
  taskSwitchedInTimeSlice := TaskStructure.taskSwitchedInTimeSlice mem task
  wakeupAfterMsec := TaskStructure.wakeupAfterMsec mem task
  wakeupAfterEvent := TaskStructure.wakeupAfterEvent mem task

def assignedFields (mem : Memory) (task : Nat) : AssignedFields where
  prev := TaskStructure.prev mem task
  next := TaskStructure.next mem task
  taskId := TaskStructure.taskId mem task
  esp0 := mem.load32 (tss task + 4)
  ss0 := mem.load16 (tss task + 8)
  cr3 := mem.load32 (tss task + 28)
  eip := mem.load32 (tss task + 32)
  eflags := mem.load32 (tss task + 36)
  esp := mem.load32 (tss task + 56)
  es := mem.load16 (tss task + 72)
  cs := mem.load16 (tss task + 76)
  ss := mem.load16 (tss task + 80)
  ds := mem.load16 (tss task + 84)
  fs := mem.load16 (tss task + 88)
  gs := mem.load16 (tss task + 92)
  contextSwitch := mem.loadPtr (task + 116)
  contextSwitchFunc :=
    (List.range 12).map fun index =>
      mem (TaskStructure.contextSwitchFunc task + index)

def readFields (mem : Memory) (task : Nat) : ReadFields where
  assigned := assignedFields mem task
  unset := unsetFields mem task

/-! ## The bytes of the fields -/

/-- The offset is in a field which is not assigned. -/
def Unset (offset : Nat) : Prop :=
  (52 ≤ offset ∧ offset < 68) ∨ (72 ≤ offset ∧ offset < 84) ∨
    (108 ≤ offset ∧ offset < 116) ∨ (132 ≤ offset ∧ offset < 144)

/-- The offset is in a field which is assigned. -/
def Assigned (offset : Nat) : Prop :=
  offset < 10 ∨ (16 ≤ offset ∧ offset < 22) ∨ (40 ≤ offset ∧ offset < 52) ∨
    (68 ≤ offset ∧ offset < 72) ∨ (84 ≤ offset ∧ offset < 86) ∨
    (88 ≤ offset ∧ offset < 90) ∨ (92 ≤ offset ∧ offset < 94) ∨
    (96 ≤ offset ∧ offset < 98) ∨ (100 ≤ offset ∧ offset < 102) ∨
    (104 ≤ offset ∧ offset < 106) ∨ (116 ≤ offset ∧ offset < 132)

section Fields

variable {left right : Memory} {task : Nat}

/-- The offsets of a block are in the set. -/
private theorem block_agreeOn {inSet : Nat → Prop}
    (agree : ∀ offset, inSet offset →
      left (task + offset) = right (task + offset))
    (offset size : Nat)
    (inside : ∀ other, offset ≤ other → other < offset + size →
      inSet other) : AgreeOn left right (task + offset) size := by
  intro address lower upper
  have found := agree (address - task) (inside _ (by omega) (by omega))
  rwa [Nat.add_sub_cancel' (by omega)] at found

/-- The fields which are not assigned depend on their bytes only. -/
theorem unsetFields_congr
    (agree : ∀ offset, Unset offset →
      left (task + offset) = right (task + offset)) :
    unsetFields left task = unsetFields right task := by
  have block (offset size : Nat)
      (inside : (52 ≤ offset ∧ offset + size ≤ 68) ∨
        (72 ≤ offset ∧ offset + size ≤ 84) ∨
        (108 ≤ offset ∧ offset + size ≤ 116) ∨
        (132 ≤ offset ∧ offset + size ≤ 144)) :
      AgreeOn left right (task + offset) size := by
    apply block_agreeOn agree
    intro other lower upper
    unfold Unset
    omega
  simp only [unsetFields, tss, TaskStructure.taskSwitchedInTimeSlice,
    TaskStructure.wakeupAfterMsec, TaskStructure.wakeupAfterEvent,
    Nat.add_assoc, Nat.reduceAdd]
  rw [(block 52 4 (by omega)).load32, (block 56 4 (by omega)).load32,
    (block 60 4 (by omega)).load32, (block 64 4 (by omega)).load32,
    (block 72 4 (by omega)).load32, (block 76 4 (by omega)).load32,
    (block 80 4 (by omega)).load32, (block 108 2 (by omega)).load16,
    (block 112 2 (by omega)).load16, (block 114 2 (by omega)).load16,
    (block 132 1 (by omega)).load8, (block 136 4 (by omega)).load32,
    (block 140 1 (by omega)).load8]

theorem assignedFields_congr
    (agree : ∀ offset, Assigned offset →
      left (task + offset) = right (task + offset)) :
    assignedFields left task = assignedFields right task := by
  have block (offset size : Nat)
      (inside : ∀ other, offset ≤ other → other < offset + size →
        Assigned other) : AgreeOn left right (task + offset) size :=
    block_agreeOn agree offset size inside
  have links := block 0 8 (by unfold Assigned; omega)
  have number := block 8 2 (by unfold Assigned; omega)
  have stack := block 16 6 (by unfold Assigned; omega)
  have state := block 40 12 (by unfold Assigned; omega)
  have pointer := block 68 4 (by unfold Assigned; omega)
  have es := block 84 2 (by unfold Assigned; omega)
  have cs := block 88 2 (by unfold Assigned; omega)
  have ss := block 92 2 (by unfold Assigned; omega)
  have ds := block 96 2 (by unfold Assigned; omega)
  have fs := block 100 2 (by unfold Assigned; omega)
  have gs := block 104 2 (by unfold Assigned; omega)
  have switch := block 116 16 (by unfold Assigned; omega)
  have routine : ∀ index ∈ List.range 12,
      left (task + (120 + index)) = right (task + (120 + index)) := by
    intro index member
    rw [List.mem_range] at member
    exact switch _ (by omega) (by omega)
  simp only [assignedFields, tss, TaskStructure.prev, TaskStructure.next,
    TaskStructure.taskId, TaskStructure.contextSwitchFunc, Nat.add_assoc,
    Nat.reduceAdd]
  rw [(links.sub task 4 (by omega) (by omega)).loadPtr,
    (links.sub (task + 4) 4 (by omega) (by omega)).loadPtr, number.load16,
    (stack.sub (task + 16) 4 (by omega) (by omega)).load32,
    (stack.sub (task + 20) 2 (by omega) (by omega)).load16,
    (state.sub (task + 40) 4 (by omega) (by omega)).load32,
    (state.sub (task + 44) 4 (by omega) (by omega)).load32,
    (state.sub (task + 48) 4 (by omega) (by omega)).load32, pointer.load32,
    es.load16, cs.load16, ss.load16, ds.load16, fs.load16, gs.load16,
    (switch.sub (task + 116) 4 (by omega) (by omega)).loadPtr,
    List.map_congr_left routine]

end Fields

/-! ## What the assignments do to the fields -/

section Assignments

variable {left right : Memory} {task directory : Nat} {taskId : Half}

/-- The assignments leave the other fields alone. -/
theorem initTss_unset (mem : Memory) {offset : Nat} (unset : Unset offset) :
    initTss mem task directory (task + offset) = mem (task + offset) := by
  unfold Unset at unset
  simp only [initTss, tss]
  iterate 12
    first
    | rw [store32_agreeOutside _ _ _ (task + offset) (by omega)]
    | rw [store16_agreeOutside _ _ _ (task + offset) (by omega)]

theorem initSwitchRoutine_unset (mem : Memory) {offset : Nat}
    (unset : Unset offset) :
    initSwitchRoutine mem task taskId (task + offset) =
      mem (task + offset) := by
  unfold Unset at unset
  simp only [initSwitchRoutine, contextSwitchFunc]
  rw [storePtr_agreeOutside _ _ _ (task + offset) (by omega),
    store8_agreeOutside _ _ _ (task + offset) (by omega),
    storeBytes_agreeOutside _ _ _ (task + offset) (by
      simp only [contextSwitchTemplate, List.length_cons, List.length_nil]
      omega),
    store16_agreeOutside _ _ _ (task + offset) (by omega)]

/-- The assigned fields do not depend on the old contents. -/
theorem initTask_assigned (left right : Memory) {offset : Nat}
    (assigned : Assigned offset) (behind : 8 ≤ offset) :
    initTss (initSwitchRoutine left task taskId) task directory
        (task + offset) =
      initTss (initSwitchRoutine right task taskId) task directory
        (task + offset) := by
  have start : AgreeAt left right fun _ => False := by
    intro address member
    exact member.elim
  have routine :=
    (((start.store16 (task + 8) taskId).storeBytes (contextSwitchFunc task)
      contextSwitchTemplate).store8 (contextSwitchFunc task + 8)
        (selectorByte taskId)).storePtr (task + 116) (contextSwitchFunc task)
  have segment :=
    (((((((((((routine.store32 (tss task + 32) 0x20000020#32).store32
      (tss task + 56) 0x20001800#32).store32
      (tss task + 36) 0x00000200#32).store32
      (tss task + 4) 0x20002000#32).store16
      (tss task + 8) 0x0010#16).store16
      (tss task + 72) (0x0038#16 ||| 0x0003#16)).store16
      (tss task + 76) (0x0030#16 ||| 0x0003#16)).store16
      (tss task + 80) (0x0038#16 ||| 0x0003#16)).store16
      (tss task + 84) (0x0038#16 ||| 0x0003#16)).store16
      (tss task + 88) (0x0038#16 ||| 0x0003#16)).store16
      (tss task + 92) (0x0038#16 ||| 0x0003#16)).store32
      (tss task + 28) (BitVec.ofNat 32 directory ||| 0x18#32)
  apply segment (task + offset)
  unfold Assigned at assigned
  simp only [tss, contextSwitchFunc, contextSwitchTemplate, List.length_cons,
    List.length_nil]
  omega

/-- The links of the new task depend on its neighbours only. -/
theorem linkLast_links (left right : Memory) (first last : Nat)
    {offset : Nat} (inLinks : offset < 8) :
    linkLast left first last task (task + offset) =
      linkLast right first last task (task + offset) := by
  have start : AgreeAt left right fun _ => False := by
    intro address member
    exact member.elim
  have linked :=
    (((start.storePtr task last).storePtr (task + 4) first).storePtr
      (last + 4) task).storePtr first task
  apply linked (task + offset)
  omega

theorem setLinks_links (left right : Memory) {offset : Nat}
    (inLinks : offset < 8) :
    setNext (setPrev left task task) task task (task + offset) =
      setNext (setPrev right task task) task task (task + offset) := by
  have start : AgreeAt left right fun _ => False := by
    intro address member
    exact member.elim
  apply (start.storePtr task task).storePtr (task + 4) task (task + offset)
  omega

end Assignments

/-! ## The page of the task structure -/

section Page

variable {machine : Machine} {file : File} {offset : Nat}

/-- The clearing loop of the page directory does not reach the structure. -/
theorem directory_apart (free : FourFree machine.heapAllocTable) :
    (nextTaskPages machine.heapAllocTable).directory + 0x1004 ≤
        (nextTaskPages machine.heapAllocTable).task ∨
      (nextTaskPages machine.heapAllocTable).task + 4096 ≤
        (nextTaskPages machine.heapAllocTable).directory := by
  have distinct := nextTaskPages_distinct free
  have overrun := directory_overrun machine.heapAllocTable
  rcases distinct.ne_of with ⟨-, notTask, tableNotTask, -⟩
  have apart := distinct.heapDirectory.apart distinct.heapTask notTask
  have directoryAligned := distinct.heapDirectory.aligned
  have taskAligned := distinct.heapTask.aligned
  have notBehind : (nextTaskPages machine.heapAllocTable).directory + 0x1000 ≠
      (nextTaskPages machine.heapAllocTable).task := by
    intro isBehind
    rw [overrun] at isBehind
    have member : heapPage (nextPage machine.heapAllocTable + 1) ∈
        (nextTaskPages machine.heapAllocTable).all := by
      rw [isBehind]
      exact TaskPages.task_mem _
    have follows :=
      table_eq free (not_live_of_mem_nextTaskPages free member)
    apply tableNotTask
    rw [follows]
    exact overrun.trans isBehind
  omega

/-- What a creation stores into the structure before it is linked. -/
theorem creationMemory_taskPage (free : FourFree machine.heapAllocTable)
    (inPage : offset < 4096) :
    ∃ before : Memory,
      before ((nextTaskPages machine.heapAllocTable).task + offset) =
          machine.mem ((nextTaskPages machine.heapAllocTable).task + offset) ∧
        creationMemory machine file =
          initTss
            (initSwitchRoutine before
              (nextTaskPages machine.heapAllocTable).task
              machine.taskIdCounter)
            (nextTaskPages machine.heapAllocTable).task
            (nextTaskPages machine.heapAllocTable).directory := by
  have distinct := nextTaskPages_distinct free
  have tables := distinct.heapTable.apart distinct.heapTask
    distinct.ne_of.2.2.1
  have directory := directory_apart free
  refine ⟨initPageTable
      (initPageDirectory machine.mem
        (nextTaskPages machine.heapAllocTable).directory
        (nextTaskPages machine.heapAllocTable).table)
      (nextTaskPages machine.heapAllocTable).table file.dataBaseAddr
      (nextTaskPages machine.heapAllocTable).stack, ?_, ?_⟩
  · rw [initPageTable_frame _ _ _ _ _ (by omega),
      initPageDirectory_frame _ _ _ _ (by omega)]
  · rw [creationMemory_eq free]
    rfl

/-- Behind the links, the insertion leaves the structure alone. -/
theorem taskInit_taskPage (free : FourFree machine.heapAllocTable)
    (links : LinksInUse machine) (behind : 8 ≤ offset)
    (inPage : offset < 4096) :
    (taskInit machine file).mem
        ((nextTaskPages machine.heapAllocTable).task + offset) =
      creationMemory machine file
        ((nextTaskPages machine.heapAllocTable).task + offset) := by
  have taskHeap := newTask_heap free
  have lower := taskHeap.lower
  have apart {page : Nat} (inUse : InUse machine.heapAllocTable page) :
      page + 4096 ≤ (nextTaskPages machine.heapAllocTable).task ∨
        (nextTaskPages machine.heapAllocTable).task + 4096 ≤ page :=
    inUse.heap.apart taskHeap (inUse.ne_task free)
  apply taskInit_frame free links.head (.inr (by omega))
  intro nonNull
  have head := apart (links.head nonNull)
  refine ⟨by omega, ?_⟩
  rw [prev_creationMemory_head free (links.head nonNull)]
  split
  · omega
  · by_cases null : prev machine.mem machine.runQueue.head = 0
    · omega
    · have last := apart (links.last nonNull null)
      omega

/-- A field which is not assigned keeps its old content. -/
theorem taskInit_unset (free : FourFree machine.heapAllocTable)
    (links : LinksInUse machine) (unset : Unset offset) :
    (taskInit machine file).mem
        ((nextTaskPages machine.heapAllocTable).task + offset) =
      machine.mem ((nextTaskPages machine.heapAllocTable).task + offset) := by
  have bounds : 8 ≤ offset ∧ offset < 4096 := by
    unfold Unset at unset
    omega
  rcases creationMemory_taskPage free bounds.2 with ⟨before, same, equal⟩
  rw [taskInit_taskPage free links bounds.1 bounds.2, equal,
    initTss_unset _ unset, initSwitchRoutine_unset _ unset, same]

theorem unsetFields_taskInit (free : FourFree machine.heapAllocTable)
    (links : LinksInUse machine) :
    unsetFields (taskInit machine file).mem
        (nextTaskPages machine.heapAllocTable).task =
      unsetFields machine.mem (nextTaskPages machine.heapAllocTable).task :=
  unsetFields_congr fun _ unset => taskInit_unset free links unset

end Page

/-! ## Two creations -/

/-- The machine with another memory. -/
def withMemory (machine : Machine) (mem : Memory) : Machine :=
  { machine with mem := mem }

@[simp]
theorem withMemory_heapAllocTable (machine : Machine) (mem : Memory) :
    (withMemory machine mem).heapAllocTable = machine.heapAllocTable :=
  rfl

@[simp]
theorem withMemory_runQueue (machine : Machine) (mem : Memory) :
    (withMemory machine mem).runQueue = machine.runQueue :=
  rfl

@[simp]
theorem withMemory_mem (machine : Machine) (mem : Memory) :
    (withMemory machine mem).mem = mem :=
  rfl

/-- The memories differ in the pages which are handed out only. -/
def SameElsewhere (machine : Machine) (mem : Memory) : Prop :=
  ∀ address, ¬InNewPages machine.heapAllocTable address →
    mem address = machine.mem address

section TwoRuns

variable {machine : Machine} {mem : Memory} {file : File} {offset : Nat}

theorem SameElsewhere.prev (same : SameElsewhere machine mem)
    (free : FourFree machine.heapAllocTable)
    (head : InUse machine.heapAllocTable machine.runQueue.head) :
    TaskStructure.prev mem machine.runQueue.head =
      TaskStructure.prev machine.mem machine.runQueue.head := by
  have agree : AgreeOn mem machine.mem machine.runQueue.head 4 := by
    intro address lower upper
    apply same
    exact head.not_inNewPages free ⟨lower, by rw [pageSize]; omega⟩
  exact agree.loadPtr

theorem SameElsewhere.links (same : SameElsewhere machine mem)
    (free : FourFree machine.heapAllocTable) (links : LinksInUse machine) :
    LinksInUse (withMemory machine mem) := by
  constructor
  · exact links.head
  · rw [withMemory_runQueue, withMemory_heapAllocTable, withMemory_mem]
    intro nonNull
    rw [same.prev free (links.head nonNull)]
    exact links.last nonNull

/-- Both insertions find the same last task. -/
theorem SameElsewhere.last (same : SameElsewhere machine mem) (file : File)
    (free : FourFree machine.heapAllocTable)
    (head : InUse machine.heapAllocTable machine.runQueue.head) :
    TaskStructure.prev (creationMemory (withMemory machine mem) file)
        machine.runQueue.head =
      TaskStructure.prev (creationMemory machine file)
        machine.runQueue.head := by
  have found :=
    @prev_creationMemory_head (withMemory machine mem) file free head
  rw [withMemory_runQueue, withMemory_heapAllocTable, withMemory_mem,
    same.prev free head] at found
  rw [found, prev_creationMemory_head free head]

/-- The links of the new task are the same in both runs. -/
theorem taskInit_links (free : FourFree machine.heapAllocTable)
    (links : LinksInUse machine) (same : SameElsewhere machine mem)
    (inLinks : offset < 8) :
    (taskInit machine file).mem
        ((nextTaskPages machine.heapAllocTable).task + offset) =
      (taskInit (withMemory machine mem) file).mem
        ((nextTaskPages machine.heapAllocTable).task + offset) := by
  by_cases null : machine.runQueue.head = 0
  · rw [taskInit_mem_of_null free null,
      @taskInit_mem_of_null (withMemory machine mem) file free null]
    exact setLinks_links _ _ inLinks
  · have head := links.head null
    rw [taskInit_mem_of_head free null head,
      @taskInit_mem_of_head (withMemory machine mem) file free null head,
      withMemory_runQueue, withMemory_heapAllocTable, same.last file free head]
    exact linkLast_links _ _ _ _ inLinks

/-- The assigned fields are the same in both runs. -/
theorem taskInit_assigned (free : FourFree machine.heapAllocTable)
    (links : LinksInUse machine) (same : SameElsewhere machine mem)
    (assigned : Assigned offset) :
    (taskInit machine file).mem
        ((nextTaskPages machine.heapAllocTable).task + offset) =
      (taskInit (withMemory machine mem) file).mem
        ((nextTaskPages machine.heapAllocTable).task + offset) := by
  rcases Nat.lt_or_ge offset 8 with inLinks | behind
  · exact taskInit_links free links same inLinks
  · have inPage : offset < 4096 := by
      unfold Assigned at assigned
      omega
    rcases @creationMemory_taskPage machine file offset free inPage with
      ⟨left, -, leftEqual⟩
    rcases @creationMemory_taskPage (withMemory machine mem) file offset free
      inPage with ⟨right, -, rightEqual⟩
    rw [taskInit_taskPage free links behind inPage, leftEqual]
    have other := @taskInit_taskPage (withMemory machine mem) file offset free
      (same.links free links) behind inPage
    rw [rightEqual, withMemory_heapAllocTable] at other
    rw [other]
    exact initTask_assigned left right assigned behind

/--
A task which is created in reused pages reads like one which is created in
other pages, exactly when the fields which `task_init` does not assign held
the same values before.
-/
theorem readFields_eq_iff (file : File)
    (free : FourFree machine.heapAllocTable) (links : LinksInUse machine)
    (same : SameElsewhere machine mem) :
    readFields (taskInit machine file).mem
          (nextTaskPages machine.heapAllocTable).task =
        readFields (taskInit (withMemory machine mem) file).mem
          (nextTaskPages machine.heapAllocTable).task ↔
      unsetFields machine.mem (nextTaskPages machine.heapAllocTable).task =
        unsetFields mem (nextTaskPages machine.heapAllocTable).task := by
  have assigned : assignedFields (taskInit machine file).mem
        (nextTaskPages machine.heapAllocTable).task =
      assignedFields (taskInit (withMemory machine mem) file).mem
        (nextTaskPages machine.heapAllocTable).task :=
    assignedFields_congr fun _ inField =>
      taskInit_assigned free links same inField
  have left := @unsetFields_taskInit machine file free links
  have right := @unsetFields_taskInit (withMemory machine mem) file free
    (same.links free links)
  rw [withMemory_heapAllocTable, withMemory_mem] at right
  rw [readFields, readFields, ReadFields.mk.injEq, left, right, assigned]
  exact and_iff_right rfl

end TwoRuns

/-! ## Pages which were used before -/

theorem booted_linksInUse : LinksInUse booted where
  head := fun nonNull => absurd rfl nonNull
  last := fun nonNull => absurd rfl nonNull

/-- The page of the task structure which is created first after boot. -/
def firstTask : Nat := (nextTaskPages booted.heapAllocTable).task

/-- What its stack page holds makes no difference. -/
theorem readFields_usedStack :
    readFields (taskInit booted fshell).mem firstTask =
      readFields
        (taskInit
          (withMemory booted
            (booted.mem.store8
              (nextTaskPages booted.heapAllocTable).stack 1#8))
          fshell).mem firstTask := by
  have distinct := nextTaskPages_distinct booted_fourFree
  have same : SameElsewhere booted
      (booted.mem.store8 (nextTaskPages booted.heapAllocTable).stack 1#8) := by
    intro address outside
    apply store8_agreeOutside
    by_contra here
    apply outside
    refine ⟨(nextTaskPages booted.heapAllocTable).stack, ?_, ?_⟩
    · exact TaskPages.stack_mem _
    · rw [pageSize]
      omega
  apply (readFields_eq_iff fshell booted_fourFree booted_linksInUse same).mpr
  apply unsetFields_congr
  intro offset unset
  have apart := distinct.heapTask.apart distinct.heapStack
    distinct.ne_of.2.2.2
  have inPage : offset < 4096 := by
    unfold Unset at unset
    omega
  exact (store8_agreeOutside booted.mem _ 1#8 _ (by omega)).symm

/-- The page has held a task structure with a local descriptor table. -/
def reused (selector : Half) : Machine :=
  withMemory booted (booted.mem.store16 (tss firstTask + 96) selector)

theorem reused_mem (selector : Half) :
    (reused selector).mem =
      booted.mem.store16 (tss firstTask + 96) selector := rfl

theorem unsetFields_ldt (mem : Memory) (task : Nat) :
    (unsetFields mem task).ldt = mem.load16 (tss task + 96) := rfl

theorem reused_ldt (selector : Half) :
    (unsetFields (taskInit (reused selector) fshell).mem firstTask).ldt =
      selector := by
  have links : LinksInUse (reused selector) :=
    ⟨fun nonNull => absurd rfl nonNull, fun nonNull => absurd rfl nonNull⟩
  have kept :=
    @unsetFields_taskInit (reused selector) fshell booted_fourFree links
  have same : (unsetFields (reused selector).mem firstTask).ldt =
      selector := by
    rw [unsetFields_ldt, reused_mem]
    exact load16_store16_self booted.mem (tss firstTask + 96) selector
  exact (congrArg UnsetFields.ldt kept).trans same

theorem ldt_of_readFields_eq {left right : Memory} {task : Nat}
    (equal : readFields left task = readFields right task) :
    (unsetFields left task).ldt = (unsetFields right task).ldt :=
  congrArg UnsetFields.ldt (congrArg ReadFields.unset equal)

/-- The selector of the local descriptor table is inherited. -/
theorem reused_readFields_ne :
    SameElsewhere (reused 0#16) (reused 0x28#16).mem ∧
      readFields (taskInit (reused 0#16) fshell).mem firstTask ≠
        readFields (taskInit (reused 0x28#16) fshell).mem firstTask := by
  constructor
  · intro address outside
    have apart : address < tss firstTask + 96 ∨
        tss firstTask + 96 + 2 ≤ address := by
      by_contra here
      apply outside
      refine ⟨firstTask, TaskPages.task_mem _, ?_⟩
      rw [tss] at here
      rw [pageSize]
      omega
    exact (store16_agreeOutside booted.mem _ 0x28#16 address apart).trans
      (store16_agreeOutside booted.mem _ 0#16 address apart).symm
  · intro equal
    have selectors := ldt_of_readFields_eq equal
    rw [reused_ldt, reused_ldt] at selectors
    exact absurd selectors (by decide)

end MagicalOs.Kernel.StaleFields
