import MagicalOs.Library.Countdown
import MagicalOs.Kernel.HardwareTasks
import MagicalOs.Kernel.RunningSegments
import MagicalOs.Kernel.StableMemory

/-!
# Programs beside the kernel

Between two steps of the kernel the running task stores any byte anywhere, as
far as the processor lets it: its page directory translates the address, and
user mode may write to the page.  Nothing is assumed about the programs but
that only files of the file system are executed.

In every such run the kernel keeps its queues and the page tables, and a store
reaches the stack of the running task or the page of its file.  The stack page
also holds the frames of interrupts and system calls, since `esp0` points to
its end; while a task does not run, nothing writes to it.
-/

namespace MagicalOs.Kernel.UserPrograms

open MagicalOs.Library.ByteMemory
open MagicalOs.Library.ByteMemory.Memory
open MagicalOs.Library.Countdown
open MagicalOs.Kernel.HeapPages
open MagicalOs.Kernel.MachineState
open MagicalOs.Kernel.PageTables
open MagicalOs.Kernel.TaskStructure
open MagicalOs.Kernel.TaskCreation
open MagicalOs.Kernel.SchedQueues
open MagicalOs.Kernel.Scheduler
open MagicalOs.Kernel.TaskQueues
open MagicalOs.Kernel.Dispatch (ready_of_turn)
open MagicalOs.Kernel.KernelRuns
open MagicalOs.Kernel.QueueInvariant
open MagicalOs.Kernel.HeapRuns (TaskRecord newTask)
open MagicalOs.Kernel.TaskIsolation
open MagicalOs.Kernel.AddressSpaces
open MagicalOs.Kernel.StepEffects (start_effect)
open MagicalOs.Kernel.TaskSegments
open MagicalOs.Kernel.HardwareTasks
open MagicalOs.Kernel.RunningSegments
open MagicalOs.Kernel.StableMemory

/-! ## Stores of the running program -/

/-- `CR3` without its flags, as the task switch has loaded it. -/
def pageDirectory (machine : Machine) : Nat :=
  (machine.mem.load32 (machine.cpu.runningTss.toNat + 28)).toNat / 4096 * 4096

/-- A store from user mode; the kernel task runs no program. -/
def userStore (layout : Layout) (machine : Machine) (address : Word)
    (value : Byte) : Option Machine :=
  if machine.cpu.runningTss = BitVec.ofNat 32 layout.kernTaskTss then
    none
  else
    (walk machine.mem (pageDirectory machine) address.toNat).bind
      fun mapping =>
        if mapping.user ∧ mapping.writable then
          some
            { machine with
              mem := machine.mem.store8 mapping.physical value }
        else
          none

inductive Action where
  | kernel (event : Event)
  | store (address : Word) (value : Byte)

/-- One step of the kernel, which executes files of the file system only. -/
inductive Acts (layout : Layout) (machine : Machine) :
    Action → Machine → Prop where
  | kernel {event : Event} {after : Machine}
      (executes : ∀ file, event = .taskInit file → file ∈ fsInit fsBaseAddr)
      (taken : Step layout machine event after) :
      Acts layout machine (.kernel event) after
  | store {address : Word} {value : Byte} {after : Machine}
      (stored : userStore layout machine address value = some after) :
      Acts layout machine (.store address value) after

/-- The tasks which an event creates. -/
def recordsBy (machine : Machine) : Event → List TaskRecord
  | .taskInit file => [newTask machine.heapAllocTable file]
  | .timer => []
  | .keyboard _ _ => []
  | .wakeupAfterMsec _ => []
  | .wakeupAfterEvent _ => []

/--
The states of the kernel and its programs, with the created tasks.  The runs
are taken over a condition on the addresses to which programs store.
-/
inductive Programs (layout : Layout) (mem : Memory) (Allowed : Word → Prop) :
    Machine → List TaskRecord → Prop where
  | boot : Programs layout mem Allowed (boot layout mem) []
  | kernel {machine : Machine} {records : List TaskRecord} {event : Event}
      {after : Machine} (before : Programs layout mem Allowed machine records)
      (acts : Acts layout machine (.kernel event) after) :
      Programs layout mem Allowed after (records ++ recordsBy machine event)
  | store {machine : Machine} {records : List TaskRecord} {address : Word}
      {value : Byte} {after : Machine}
      (before : Programs layout mem Allowed machine records)
      (allowed : Allowed address)
      (acts : Acts layout machine (.store address value) after) :
      Programs layout mem Allowed after records

/-! ## The pages of the tasks -/

/-- The task structures. -/
def structs (records : List TaskRecord) : List Nat :=
  records.map fun record => record.pages.task

/-- The pages which the task with this number is given. -/
def pagesAt (number : Nat) : TaskPages where
  directory := heapPage (4 * number)
  table := heapPage (4 * number + 1)
  task := heapPage (4 * number + 2)
  stack := heapPage (4 * number + 3)

/-- The tasks are given one group of four pages after the other. -/
def Numbered (records : List TaskRecord) : Prop :=
  ∀ number, ∀ record ∈ records[number]?, record.pages = pagesAt number

section Pages

variable {machine : Machine} {records : List TaskRecord}
  {record : TaskRecord} {event : Event} {number : Nat}

theorem structs_append (records others : List TaskRecord) :
    structs (records ++ others) = structs records ++ structs others :=
  List.map_append

theorem structs_length (records : List TaskRecord) :
    (structs records).length = records.length :=
  List.length_map _

theorem structs_recordsBy (machine : Machine) (event : Event) :
    structs (recordsBy machine event) = createdBy machine event := by
  cases event with
  | taskInit file => rfl
  | timer => rfl
  | keyboard status data => rfl
  | wakeupAfterMsec msec => rfl
  | wakeupAfterEvent eventType => rfl

/-- Only a creation adds a task. -/
theorem eq_of_mem_recordsBy (member : record ∈ recordsBy machine event) :
    ∃ file, event = .taskInit file ∧
      record = newTask machine.heapAllocTable file := by
  cases event with
  | taskInit file => exact ⟨file, rfl, List.mem_singleton.mp member⟩
  | timer => cases member
  | keyboard status data => cases member
  | wakeupAfterMsec msec => cases member
  | wakeupAfterEvent eventType => cases member

theorem Numbered.append (numbered : Numbered records)
    (next : record.pages = pagesAt records.length) :
    Numbered (records ++ [record]) := by
  intro number other found
  by_cases small : number < records.length
  · rw [List.getElem?_append_left small] at found
    exact numbered number other found
  · rw [List.getElem?_append_right (Nat.le_of_not_lt small)] at found
    have position : number = records.length := by
      have inside := (List.getElem?_eq_some_iff.mp found).1
      rw [List.length_singleton] at inside
      omega
    subst position
    rw [Nat.sub_self] at found
    cases found
    exact next

theorem Numbered.exists_number (numbered : Numbered records)
    (member : record ∈ records) :
    ∃ number < records.length, records[number]? = some record ∧
      record.pages = pagesAt number := by
  rcases List.mem_iff_getElem?.mp member with ⟨number, found⟩
  have small : number < records.length :=
    (List.getElem?_eq_some_iff.mp found).1
  exact ⟨number, small, found, numbered number record found⟩

theorem Numbered.struct (numbered : Numbered records) {task : Nat}
    (member : task ∈ structs records) :
    ∃ number < records.length, task = heapPage (4 * number + 2) := by
  rcases List.mem_map.mp member with ⟨record, known, rfl⟩
  rcases numbered.exists_number known with ⟨number, small, _, pages⟩
  exact ⟨number, small, congrArg TaskPages.task pages⟩

/-- The pages of the tasks are stable, apart from the task structures, -/
theorem Numbered.stableBlock (numbered : Numbered records)
    (small : number < 4 * records.length) (other : number % 4 ≠ 2) :
    StableBlock (structs records) (heapPage number) 4096 := by
  intro address lower upper
  rw [heapPage_eq] at lower upper
  refine ⟨by omega, ?_, ?_⟩
  · rw [structs_length, heapPage_eq]
    omega
  · intro task member
    rcases numbered.struct member with ⟨index, _, rfl⟩
    rw [heapPage_eq]
    omega

/-- and of those the part between the links and the time slice is. -/
theorem Numbered.stableBlock_struct (numbered : Numbered records)
    (small : number < records.length) :
    StableBlock (structs records) (heapPage (4 * number + 2) + 8) 124 := by
  intro address lower upper
  rw [heapPage_eq] at lower upper
  refine ⟨by omega, ?_, ?_⟩
  · rw [structs_length, heapPage_eq]
    omega
  · intro task member
    rcases numbered.struct member with ⟨index, _, rfl⟩
    rw [heapPage_eq]
    omega

end Pages

/-! ## The invariant -/

/-- The address space of a task, and the segment which selects it. -/
structure Configured (mem : Memory) (record : TaskRecord) : Prop where
  tables : NewTables mem record.pages record.file
  cr3 : mem.load32 (tss record.pages.task + 28) =
    BitVec.ofNat 32 record.pages.directory ||| 0x18#32

/-- The kernel beside its programs, between two actions. -/
structure Guarded (layout : Layout) (machine : Machine)
    (records : List TaskRecord) (queues : Queues) : Prop where
  invariant : Invariant machine (structs records) queues
  own : OwnSegments layout machine.gdt machine.cpu (structs records)
  numbered : Numbered records
  files : ∀ record ∈ records, record.file ∈ fsInit fsBaseAddr
  configured : ∀ record ∈ records, Configured machine.mem record

section Kernel

variable {layout : Layout} {mem after : Memory} {machine next : Machine}
  {records : List TaskRecord} {record : TaskRecord} {queues : Queues}
  {event : Event} {file : File} {number : Nat}

/-- What configures a task lies in three of its pages. -/
theorem Configured.congr (configured : Configured mem record)
    (directory : AgreeOn after mem record.pages.directory 4096)
    (table : AgreeOn after mem record.pages.table 4096)
    (cr3 : AgreeOn after mem (tss record.pages.task + 28) 4) :
    Configured after record := by
  have tables := configured.tables
  constructor
  · constructor
    · apply tables.tables.congr
      · exact directory.sub _ _ (by omega) (by omega)
      · exact table.sub _ _ (by omega) (by omega)
    · rw [(directory.sub _ 4 (by omega) (by omega)).load32]
      exact tables.kernel
    · rw [(table.sub _ 4 (by omega) (by omega)).load32]
      exact tables.data
  · rw [cr3.load32]
    exact configured.cr3

/-- The last assignment to `tss` is the one to `__cr3`. -/
theorem initTaskMemory_cr3 (mem : Memory) (pages : TaskPages) (file : File)
    (taskId : Half) :
    (initTaskMemory mem pages file taskId).load32 (tss pages.task + 28) =
      BitVec.ofNat 32 pages.directory ||| 0x18#32 := by
  rw [initTaskMemory, initTss]
  exact load32_store32_self _ _ _

/-- The pages of the next task are the next four pages. -/
theorem Guarded.nextTaskPages
    (guarded : Guarded layout machine records queues)
    (free : FourFree machine.heapAllocTable) :
    nextTaskPages machine.heapAllocTable = pagesAt records.length := by
  have holds := guarded.invariant
  have pages :=
    (nextTaskPages_of_heapPrefix holds.heap (holds.room_of_free free)).1
  rw [structs_length] at pages
  exact pages

/-- Queueing the new task does not change its segment. -/
theorem Guarded.newTask_agreeOn
    (guarded : Guarded layout machine records queues)
    (free : FourFree machine.heapAllocTable) :
    AgreeOn (taskInit machine file).mem (initialized machine file).mem
      (tss (newTask machine.heapAllocTable file).pages.task) 104 := by
  have holds := guarded.invariant
  have distinct := nextTaskPages_distinct free
  have links :
      LinksOnly (initialized machine file).mem (taskInit machine file).mem
        ((TaskCreation.nextTaskPages machine.heapAllocTable).task ::
          queues.run) :=
    holds.taskInit_linksOnly free
  apply links.agreeOn
  intro task member
  rw [newTask_pages free file, tss]
  rcases List.mem_cons.mp member with rfl | ready
  · omega
  · have readyPage := holds.represents.run.pages task ready
    have different : task ≠
        (TaskCreation.nextTaskPages machine.heapAllocTable).task := by
      rintro rfl
      exact holds.nextTask_fresh free (List.mem_append_left _ ready)
    have apart := readyPage.apart distinct.heapTask different
    omega

/-- A new task is configured, -/
theorem Guarded.newTask_configured
    (guarded : Guarded layout machine records queues)
    (free : FourFree machine.heapAllocTable) :
    Configured (taskInit machine file).mem
      (newTask machine.heapAllocTable file) := by
  have queue : QueueInUse machine (0 :: queues.run) :=
    runQueue_inUse guarded.invariant
  have pages := newTask_pages free file
  constructor
  · rw [pages]
    exact taskInit_newTables free queue
  · have segment : AgreeOn (taskInit machine file).mem
        (initialized machine file).mem
        (tss (newTask machine.heapAllocTable file).pages.task) 104 :=
      guarded.newTask_agreeOn free
    rw [(segment.sub _ 4 (Nat.le_add_right _ 28) (by omega)).load32, pages]
    exact initTaskMemory_cr3 _ _ _ _

/-- and the tasks before it stay configured in every step of the kernel. -/
theorem Guarded.configured_step
    (guarded : Guarded layout machine records queues)
    (taken : Step layout machine event next) (member : record ∈ records) :
    Configured next.mem record := by
  have holds := guarded.invariant
  have numbered := guarded.numbered
  rcases numbered.exists_number member with ⟨number, small, _, pages⟩
  have directory :
      StableBlock (structs records) (heapPage (4 * number)) 4096 :=
    numbered.stableBlock (by omega) (by omega)
  have table :
      StableBlock (structs records) (heapPage (4 * number + 1)) 4096 :=
    numbered.stableBlock (by omega) (by omega)
  have struct := numbered.stableBlock_struct small
  have task : record.pages.task = heapPage (4 * number + 2) :=
    congrArg TaskPages.task pages
  rw [← task] at struct
  apply (guarded.configured record member).congr
  · rw [pages]
    exact directory.agreeOn holds taken
  · rw [pages]
    exact table.agreeOn holds taken
  · exact (struct.agreeOn holds taken).sub _ 4 (by rw [tss]; omega)
      (by rw [tss]; omega)

theorem Guarded.kernel (guarded : Guarded layout machine records queues)
    (executes : ∀ file, event = .taskInit file → file ∈ fsInit fsBaseAddr)
    (taken : Step layout machine event next) :
    ∃ later,
      Guarded layout next (records ++ recordsBy machine event) later := by
  have holds := guarded.invariant
  have created : structs (records ++ recordsBy machine event) =
      structs records ++ createdBy machine event := by
    rw [structs_append, structs_recordsBy]
  rcases holds.step taken with ⟨later, invariant⟩
  have own := guarded.own.step holds taken
  rw [← created] at invariant own
  refine ⟨later, invariant, own, ?_, ?_, ?_⟩
  · have enabled := taken.1
    cases event with
    | taskInit file =>
        apply guarded.numbered.append
        rw [newTask_pages enabled]
        exact guarded.nextTaskPages enabled
    | timer => simpa [recordsBy] using guarded.numbered
    | keyboard status data => simpa [recordsBy] using guarded.numbered
    | wakeupAfterMsec msec => simpa [recordsBy] using guarded.numbered
    | wakeupAfterEvent eventType => simpa [recordsBy] using guarded.numbered
  · intro record member
    rcases List.mem_append.mp member with old | new
    · exact guarded.files record old
    · rcases eq_of_mem_recordsBy new with ⟨file, isCreation, rfl⟩
      exact executes file isCreation
  · intro record member
    rcases List.mem_append.mp member with old | new
    · exact guarded.configured_step taken old
    · rcases eq_of_mem_recordsBy new with ⟨file, rfl, rfl⟩
      rcases taken with ⟨free, iterations, ran⟩
      cases ran
      exact guarded.newTask_configured free

end Kernel

/-- The invariant depends on links, page tables and `CR3` only. -/
theorem Guarded.congr (guarded : Guarded layout machine records queues)
    (links : ∀ record ∈ records, AgreeOn after machine.mem
      record.pages.task 8)
    (directory : ∀ record ∈ records, AgreeOn after machine.mem
      record.pages.directory 4096)
    (table : ∀ record ∈ records, AgreeOn after machine.mem
      record.pages.table 4096)
    (cr3 : ∀ record ∈ records, AgreeOn after machine.mem
      (tss record.pages.task + 28) 4) :
    Guarded layout { machine with mem := after } records queues := by
  have holds := guarded.invariant
  have linked : ∀ task ∈ queues.all,
      AgreeOn after machine.mem task 8 := by
    intro task queued
    rcases List.mem_map.mp (holds.perm.mem_iff.mp queued) with
      ⟨record, member, rfl⟩
    exact links record member
  have old := holds.represents
  have represents : Represents { machine with mem := after } queues := by
    refine ⟨?_, ?_, ?_, old.nodup⟩
    · exact old.run.congr fun task ready =>
        linked task (by simp [Queues.all, ready])
    · exact old.sleep.congr fun task asleep =>
        linked task (by simp [Queues.all, asleep])
    · exact old.event.congr fun task waiting =>
        linked task (by simp [Queues.all, waiting])
  refine ⟨?_, guarded.own, guarded.numbered, guarded.files, ?_⟩
  · exact ⟨represents, holds.current, holds.perm, holds.heap, holds.room,
      holds.below⟩
  · exact fun record member => (guarded.configured record member).congr
      (directory record member) (table record member) (cr3 record member)

/-! ## Stores -/

/-- The program's page of its file, or its stack, and the same offset there. -/
def Reaches (record : TaskRecord) (address : Word) (physical : Nat) : Prop :=
  address.toNat / 4096 = 0x20000 ∧
      physical = dataPage record.file * 4096 + address.toNat % 4096 ∨
    address.toNat / 4096 = 0x20001 ∧
      physical = record.pages.stack + address.toNat % 4096

/-- How the processor translates the addresses of a task. -/
structure Translated (mem : Memory) (record : TaskRecord) : Prop where
  data : ∀ offset < 4096,
    walk mem record.pages.directory (0x20000000 + offset) =
      some
        { physical := dataPage record.file * 4096 + offset
          writable := true
          user := true }
  stack : ∀ offset < 4096,
    walk mem record.pages.directory (0x20001000 + offset) =
      some
        { physical := record.pages.stack + offset
          writable := true
          user := true }
  others : ∀ address < 2 ^ 32,
    address / 4096 ≠ 0x20000 → address / 4096 ≠ 0x20001 →
      ∀ mapping, walk mem record.pages.directory address = some mapping →
        mapping.user = false

section Stores

variable {layout : Layout} {mem : Memory} {machine next : Machine}
  {records : List TaskRecord} {record other : TaskRecord} {queues : Queues}
  {address : Word} {value : Byte} {number physical : Nat}

theorem pagesAt_distinct (room : 4 * number + 4 ≤ maxHeapPages) :
    (pagesAt number).Distinct := by
  constructor
  · intro page member
    simp only [TaskPages.all, pagesAt, List.mem_cons, List.not_mem_nil,
      or_false] at member
    rcases member with rfl | rfl | rfl | rfl
    · exact ⟨4 * number, by omega, rfl⟩
    · exact ⟨4 * number + 1, by omega, rfl⟩
    · exact ⟨4 * number + 2, by omega, rfl⟩
    · exact ⟨4 * number + 3, by omega, rfl⟩
  · simp [TaskPages.all, pagesAt]

theorem Guarded.distinct (guarded : Guarded layout machine records queues)
    (member : record ∈ records) : record.pages.Distinct := by
  rcases guarded.numbered.exists_number member with ⟨number, small, _, pages⟩
  have room := guarded.invariant.room
  rw [structs_length] at room
  rw [pages]
  apply pagesAt_distinct
  omega

theorem mem_pagesAt {page : Nat} (member : page ∈ (pagesAt number).all) :
    ∃ kind < 4, page = heapPage (4 * number + kind) := by
  simp only [TaskPages.all, pagesAt, List.mem_cons, List.not_mem_nil,
    or_false] at member
  rcases member with rfl | rfl | rfl | rfl
  · exact ⟨0, by decide, rfl⟩
  · exact ⟨1, by decide, rfl⟩
  · exact ⟨2, by decide, rfl⟩
  · exact ⟨3, by decide, rfl⟩

/-- Two tasks have no page in common. -/
theorem Numbered.disjoint (numbered : Numbered records)
    (member : record ∈ records) (known : other ∈ records)
    (different : other ≠ record) :
    List.Disjoint record.pages.all other.pages.all := by
  rcases numbered.exists_number member with ⟨number, _, found, pages⟩
  rcases numbered.exists_number known with
    ⟨index, _, otherFound, otherPages⟩
  intro page inPages inOther
  rw [pages] at inPages
  rw [otherPages] at inOther
  rcases mem_pagesAt inPages with ⟨kind, small, rfl⟩
  rcases mem_pagesAt inOther with ⟨otherKind, otherSmall, same⟩
  rw [heapPage_inj] at same
  have equal : number = index := by omega
  rw [equal] at found
  exact different (Option.some.inj (otherFound.symm.trans found))

theorem Guarded.translated (guarded : Guarded layout machine records queues)
    (member : record ∈ records) : Translated machine.mem record := by
  have distinct := guarded.distinct member
  have tables := (guarded.configured record member).tables
  constructor
  · exact fun offset inPage => tables.walk_data distinct inPage
  · exact fun offset inPage => tables.walk_stack distinct inPage
  · exact fun address small notData notStack mapping found =>
      tables.walk_other distinct small notData notStack found

/-- A translated store reaches the pages of the program. -/
theorem Translated.reaches (translated : Translated mem record)
    {mapping : Mapping}
    (found : walk mem record.pages.directory address.toNat = some mapping)
    (user : mapping.user = true) :
    Reaches record address mapping.physical := by
  have inPage : address.toNat % 4096 < 4096 := Nat.mod_lt _ (by decide)
  by_cases inData : address.toNat / 4096 = 0x20000
  · have position :
        0x20000000 + address.toNat % 4096 = address.toNat := by omega
    have walked := translated.data _ inPage
    rw [position, found] at walked
    cases walked
    exact .inl ⟨inData, rfl⟩
  · by_cases onStack : address.toNat / 4096 = 0x20001
    · have position :
          0x20001000 + address.toNat % 4096 = address.toNat := by omega
      have walked := translated.stack _ inPage
      rw [position, found] at walked
      cases walked
      exact .inr ⟨onStack, rfl⟩
    · have hidden := translated.others address.toNat address.isLt inData
        onStack mapping found
      rw [hidden] at user
      cases user

/-- `CR3` of a running task is the page directory of the task. -/
theorem Guarded.pageDirectory_eq
    (guarded : Guarded layout machine records queues)
    (member : record ∈ records)
    (running : machine.cpu.runningTss =
      BitVec.ofNat 32 (tss record.pages.task)) :
    pageDirectory machine = record.pages.directory := by
  have distinct := guarded.distinct member
  have task := distinct.heapTask.upper
  have directory := distinct.heapDirectory.small
  have aligned := distinct.heapDirectory.aligned
  have segment : machine.cpu.runningTss.toNat = tss record.pages.task := by
    rw [running, BitVec.toNat_ofNat, tss]
    omega
  rw [pageDirectory, segment, (guarded.configured record member).cr3,
    BitVec.toNat_or, BitVec.toNat_ofNat, Nat.mod_eq_of_lt directory]
  have pages :
      (record.pages.directory ||| (0x18#32).toNat) / 2 ^ 12 =
        record.pages.directory / 2 ^ 12 ||| (0x18#32).toNat / 2 ^ 12 :=
    Nat.or_div_two_pow
  have flags : (0x18#32).toNat / 2 ^ 12 = 0 := by decide
  rw [flags, Nat.or_zero] at pages
  omega

/-- A store is made by the running task, to the pages of its program. -/
theorem Guarded.userStore_eq
    (guarded : Guarded layout machine records queues)
    (stored : userStore layout machine address value = some next) :
    ∃ record ∈ records, ∃ physical,
      machine.cpu.runningTss = BitVec.ofNat 32 (tss record.pages.task) ∧
        Reaches record address physical ∧
        next = { machine with mem := machine.mem.store8 physical value } := by
  rw [userStore] at stored
  split at stored
  next => cases stored
  next busy =>
    rcases guarded.own.running with kernel | ⟨task, member, running⟩
    · exact absurd kernel busy
    · rcases List.mem_map.mp member with ⟨record, known, rfl⟩
      rcases Option.bind_eq_some_iff.mp stored with ⟨mapping, found, allowed⟩
      rw [guarded.pageDirectory_eq known running] at found
      split at allowed
      next permitted =>
        cases allowed
        exact ⟨record, known, mapping.physical, running,
          (guarded.translated known).reaches found permitted.1, rfl⟩
      next => cases allowed

/-- The task is not the kernel task. -/
theorem tss_ne_kernTaskTss (layout : Layout) {task : Nat}
    (page : IsHeapPage task) :
    BitVec.ofNat 32 (tss task) ≠ BitVec.ofNat 32 layout.kernTaskTss := by
  intro same
  have image := layout.kernTaskTss_below
  have upper := page.upper
  have lower := page.lower
  have equal := congrArg BitVec.toNat same
  rw [BitVec.toNat_ofNat, BitVec.toNat_ofNat, tss] at equal
  omega

/-- A running program can write to its stack. -/
theorem Guarded.userStore_stack
    (guarded : Guarded layout machine records queues)
    (member : record ∈ records)
    (running : machine.cpu.runningTss =
      BitVec.ofNat 32 (tss record.pages.task)) {offset : Nat}
    (inPage : offset < 4096) (value : Byte) :
    userStore layout machine (BitVec.ofNat 32 (0x20001000 + offset)) value =
      some
        { machine with
          mem := machine.mem.store8 (record.pages.stack + offset) value } := by
  have busy := tss_ne_kernTaskTss layout (guarded.distinct member).heapTask
  have address :
      (BitVec.ofNat 32 (0x20001000 + offset)).toNat = 0x20001000 + offset := by
    rw [BitVec.toNat_ofNat]
    omega
  rw [userStore, running, if_neg busy, guarded.pageDirectory_eq member running,
    address, (guarded.translated member).stack offset inPage]
  rfl

/-- A page other than the stack of the program is out of its reach. -/
theorem Guarded.agreeOn (guarded : Guarded layout machine records queues)
    (member : record ∈ records) (reaches : Reaches record address physical)
    (other : heapPage number ≠ record.pages.stack) :
    AgreeOn (machine.mem.store8 physical value) machine.mem
      (heapPage number) 4096 := by
  have low := dataPage_fsInit.1 record.file (guarded.files record member)
  have aligned := (guarded.distinct member).heapStack.aligned
  have start : heapStartAddr = 0x100000 := rfl
  have stored : AgreeOutside (machine.mem.store8 physical value) machine.mem
      physical 1 :=
    store8_agreeOutside machine.mem physical value
  apply stored.agreeOn
  rw [heapPage_eq] at other ⊢
  rcases reaches with ⟨_, rfl⟩ | ⟨_, rfl⟩
  · omega
  · omega

/-- The other pages of a task are no stacks. -/
theorem Numbered.ne_stack (numbered : Numbered records)
    (member : record ∈ records) (kind : number % 4 ≠ 3) :
    heapPage number ≠ record.pages.stack := by
  rcases numbered.exists_number member with ⟨index, _, _, pages⟩
  rw [pages, pagesAt, Ne, heapPage_inj]
  omega

theorem Guarded.store (guarded : Guarded layout machine records queues)
    (stored : userStore layout machine address value = some next) :
    Guarded layout next records queues := by
  rcases guarded.userStore_eq stored with
    ⟨record, member, physical, _, reaches, rfl⟩
  have agree (other : TaskRecord) (known : other ∈ records) :
      AgreeOn (machine.mem.store8 physical value) machine.mem
          other.pages.directory 4096 ∧
        AgreeOn (machine.mem.store8 physical value) machine.mem
          other.pages.table 4096 ∧
        AgreeOn (machine.mem.store8 physical value) machine.mem
          other.pages.task 4096 := by
    rcases guarded.numbered.exists_number known with ⟨number, _, _, pages⟩
    have kept (kind : Nat) (small : kind < 3) :
        AgreeOn (machine.mem.store8 physical value) machine.mem
          (heapPage (4 * number + kind)) 4096 := by
      apply guarded.agreeOn member reaches
      exact guarded.numbered.ne_stack member (by omega)
    rw [pages]
    exact ⟨kept 0 (by decide), kept 1 (by decide), kept 2 (by decide)⟩
  apply guarded.congr
  · intro other known
    exact (agree other known).2.2.sub _ 8 (by omega) (by omega)
  · exact fun other known => (agree other known).1
  · exact fun other known => (agree other known).2.1
  · intro other known
    exact (agree other known).2.2.sub _ 4 (by rw [tss]; omega)
      (by rw [tss]; omega)

end Stores

/-! ## Runs -/

section Runs

variable {layout : Layout} {mem : Memory} {machine later : Machine}
  {records : List TaskRecord} {record : TaskRecord} {queues : Queues}
  {actions : List Action} {Allowed : Word → Prop}

theorem boot_guarded (layout : Layout) (mem : Memory) :
    Guarded layout (boot layout mem) [] ⟨[], [], []⟩ where
  invariant := boot_invariant layout mem
  own := boot_ownSegments layout mem
  numbered := by
    intro number record found
    cases found
  files := by simp
  configured := by simp

theorem programs_guarded
    (programs : Programs layout mem Allowed machine records) :
    ∃ queues, Guarded layout machine records queues := by
  induction programs with
  | boot => exact ⟨_, boot_guarded layout mem⟩
  | kernel before acts induction =>
      rcases induction with ⟨queues, guarded⟩
      cases acts with
      | kernel executes taken => exact guarded.kernel executes taken
  | store before allowed acts induction =>
      rcases induction with ⟨queues, guarded⟩
      cases acts with
      | store stored => exact ⟨queues, guarded.store stored⟩

/-- Every action keeps the invariant. -/
theorem Guarded.acts {action : Action} {next : Machine}
    (guarded : Guarded layout machine records queues)
    (acts : Acts layout machine action next) :
    ∃ added later, Guarded layout next (records ++ added) later := by
  cases acts with
  | kernel executes taken => exact ⟨_, guarded.kernel executes taken⟩
  | store stored =>
      refine ⟨[], queues, ?_⟩
      rw [List.append_nil]
      exact guarded.store stored

/-- The stack of a task which does not run is left alone. -/
theorem Guarded.stack_acts {action : Action} {next : Machine}
    (guarded : Guarded layout machine records queues)
    (member : record ∈ records)
    (waits : machine.cpu.runningTss ≠
      BitVec.ofNat 32 (tss record.pages.task))
    (acts : Acts layout machine action next) :
    AgreeOn next.mem machine.mem record.pages.stack 4096 := by
  have numbered := guarded.numbered
  rcases numbered.exists_number member with ⟨number, small, _, pages⟩
  rw [pages]
  cases acts with
  | kernel executes taken =>
      have stack :
          StableBlock (structs records) (heapPage (4 * number + 3)) 4096 :=
        numbered.stableBlock (by omega) (by omega)
      exact stack.agreeOn guarded.invariant taken
  | store stored =>
      rcases guarded.userStore_eq stored with
        ⟨other, known, physical, running, reaches, rfl⟩
      apply guarded.agreeOn known reaches
      rcases numbered.exists_number known with ⟨index, _, _, otherPages⟩
      intro same
      rw [otherPages, pagesAt, heapPage_inj] at same
      have equal : number = index := by omega
      rw [otherPages, ← equal, ← pages] at running
      exact waits running

end Runs

/-! ## Two programs -/

section TwoPrograms

variable {layout : Layout} {machine : Machine} {queues : Queues}
  {created : List Nat} {event : Event}

/-- With at most two tasks every turn is one of the first two. -/
theorem firstTasksOnly_of_few (holds : Invariant machine created queues)
    (hardware : Hardware layout machine created) (few : created.length ≤ 2)
    (enabled : Enabled machine event) :
    FirstTasksOnly layout machine event := by
  intro entering cause call task chosen nonNull
  rcases call.entered holds hardware enabled with ⟨later, entered⟩
  rcases ready_of_turn entered.dispatchable chosen with ⟨null, _⟩ | ready
  · exact absurd null nonNull
  · have known : task ∈ created :=
      entered.perm.mem_iff.mp (List.mem_append_left _ ready)
    rcases List.mem_iff_getElem?.mp known with ⟨index, found⟩
    have inside := (List.getElem?_eq_some_iff.mp found).1
    rw [entered.taskId_turn found (by omega)]
    omega

/-- The second file of the image. -/
def fuptime : File :=
  { name := fsBaseAddr + pageSize * 2
    dataBaseAddr := fsBaseAddr + pageSize * 2 + 32 }

/-- Tasks have been created, and none has started yet. -/
structure Idle (layout : Layout) (mem : Memory) (Allowed : Word → Prop)
    (machine : Machine) (records : List TaskRecord) : Prop where
  programs : Programs layout mem Allowed machine records
  invariant : Invariant machine (structs records) ⟨structs records, [], []⟩
  hardware : Hardware layout machine (structs records)
  idle : machine.currentTask = 0

namespace Idle

variable {mem : Memory} {Allowed : Word → Prop} {records : List TaskRecord}
  {file : File}

theorem boot (layout : Layout) (mem : Memory) (Allowed : Word → Prop) :
    Idle layout mem Allowed (KernelRuns.boot layout mem) [] where
  programs := .boot
  invariant := boot_invariant layout mem
  hardware := ⟨boot_installed layout mem, 0, boot_runs layout mem⟩
  idle := rfl

theorem creates (idle : Idle layout mem Allowed machine records)
    (few : records.length ≤ 895) (isFile : file ∈ fsInit fsBaseAddr) :
    Step layout machine (.taskInit file) (taskInit machine file) ∧
      Idle layout mem Allowed (taskInit machine file)
        (records ++ [newTask machine.heapAllocTable file]) := by
  have free := idle.invariant.free (by rwa [structs_length])
  have taken : Step layout machine (.taskInit file) (taskInit machine file) :=
    ⟨free, 0, rfl⟩
  have executes : ∀ other, Event.taskInit file = .taskInit other →
      other ∈ fsInit fsBaseAddr := by
    rintro other ⟨⟩
    exact isFile
  have invariant : Invariant (taskInit machine file) _ _ :=
    idle.invariant.taskInit free
  have hardware : Hardware layout (taskInit machine file) _ :=
    idle.hardware.taskInit idle.invariant free
  have created : structs (records ++ [newTask machine.heapAllocTable file]) =
      structs records ++ [(nextTaskPages machine.heapAllocTable).task] := by
    rw [structs_append, ← newTask_pages free file]
    rfl
  rw [← created] at invariant hardware
  refine ⟨taken, ?_, invariant, hardware, ?_⟩
  · exact .kernel idle.programs (.kernel executes taken)
  · rw [taskInit_of_free free]
    exact idle.idle

/-- The timer lets the first program run. -/
theorem starts {record : TaskRecord}
    (idle : Idle layout mem Allowed machine (record :: records))
    (few : records.length ≤ 1) :
    ∃ after, Step layout machine .timer after ∧
      after.cpu.runningTss = BitVec.ofNat 32 (tss record.pages.task) := by
  have holds := idle.invariant
  have progress : ∃ after, Step layout machine .timer after :=
    holds.progress trivial
  rcases progress with ⟨after, taken⟩
  have created : (structs (record :: records)).length ≤ 2 := by
    rw [structs_length, List.length_cons]
    omega
  have first := firstTasksOnly_of_few holds idle.hardware created taken.1
  have running := (idle.hardware.step holds first taken).running
  have current := (start_effect holds idle.idle taken).2.1
  have page : IsHeapPage record.pages.task :=
    holds.represents.run.pages _ List.mem_cons_self
  rw [current, tssOf, if_neg page.ne_null] at running
  exact ⟨after, taken, running⟩

theorem exists_two (layout : Layout) (mem : Memory) (Allowed : Word → Prop) :
    ∃ machine first second,
      Idle layout mem Allowed machine [first, second] := by
  have shell : fshell ∈ fsInit fsBaseAddr := by decide
  have uptime : fuptime ∈ fsInit fsBaseAddr := by decide
  have first := ((Idle.boot layout mem Allowed).creates (by decide) shell).2
  exact ⟨_, _, _, (first.creates (by simp) uptime).2⟩

end Idle

end TwoPrograms

/--
Whatever the programs do: the queues stay well formed and every event can still
be handled; every task has four pages of its own and is translated as at its
creation; and a store changes one byte, in the stack of the running task or in
the page of its file.
-/
theorem programs_confined {layout : Layout} {mem : Memory}
    {Allowed : Word → Prop} {machine : Machine} {records : List TaskRecord}
    (programs : Programs layout mem Allowed machine records) :
    QueuesWellFormed machine (structs records) ∧
    (∀ event, Enabled machine event → ∃ after,
      Step layout machine event after) ∧
    (∀ record ∈ records, record.pages.Distinct ∧
      ∀ other ∈ records, other ≠ record →
        List.Disjoint record.pages.all other.pages.all) ∧
    (∀ record ∈ records, Translated machine.mem record) ∧
    ∀ address value after,
      userStore layout machine address value = some after →
      ∃ record ∈ records, ∃ physical,
        machine.cpu.runningTss = BitVec.ofNat 32 (tss record.pages.task) ∧
          Reaches record address physical ∧
          after =
            { machine with mem := machine.mem.store8 physical value } := by
  rcases programs_guarded programs with ⟨queues, guarded⟩
  refine ⟨guarded.invariant.queuesWellFormed, ?_, ?_, ?_, ?_⟩
  · exact fun event enabled => guarded.invariant.progress enabled
  · intro record member
    refine ⟨guarded.distinct member, fun other known different => ?_⟩
    exact guarded.numbered.disjoint member known different
  · exact fun record member => guarded.translated member
  · exact fun address value after stored => guarded.userStore_eq stored

/-- The first of two programs runs, and writes to its stack. -/
theorem firstProgram_confined :
    ∃ machine first second stored physical,
      Programs Layout.sample (fun _ => 0#8) (fun _ => True) machine
        [first, second] ∧
      userStore Layout.sample machine 0x20001ffc#32 0xff#8 = some stored ∧
      QueuesWellFormed machine (structs [first, second]) ∧
      Translated machine.mem first ∧ Translated machine.mem second ∧
      stored = { machine with mem := machine.mem.store8 physical 0xff#8 } := by
  rcases Idle.exists_two Layout.sample (fun _ => 0#8) fun _ => True with
    ⟨machine, first, second, idle⟩
  rcases idle.starts (by simp) with ⟨started, taken, running⟩
  have acts : Acts Layout.sample machine (.kernel .timer) started :=
    .kernel (fun _ creation => by cases creation) taken
  have programs : Programs Layout.sample (fun _ => 0#8) (fun _ => True)
      started [first, second] :=
    .kernel idle.programs acts
  rcases programs_guarded programs with ⟨queues, guarded⟩
  have stored := guarded.userStore_stack List.mem_cons_self running
    (show 0xffc < 4096 by decide) 0xff#8
  have confined := programs_confined programs
  exact ⟨started, first, second, _, _, programs, stored, confined.1,
    confined.2.2.2.1 first (by simp), confined.2.2.2.1 second (by simp),
    rfl⟩

/--
As long as a task does not run, whatever else happens, its stack stays as it
was, and with it the frames of the system call in which the task waits.
-/
theorem stack_kept {layout : Layout} {mem : Memory}
    {Allowed : Word → Prop} {machine later : Machine}
    {records : List TaskRecord} {record : TaskRecord} {actions : List Action}
    (programs : Programs layout mem Allowed machine records)
    (member : record ∈ records)
    (waits : Leads (Acts layout)
      (fun state => state.cpu.runningTss ≠
        BitVec.ofNat 32 (tss record.pages.task))
      machine actions later) :
    AgreeOn later.mem machine.mem record.pages.stack 4096 := by
  rcases programs_guarded programs with ⟨queues, guarded⟩
  clear programs
  induction actions generalizing machine records queues with
  | nil =>
      have same : later = machine := waits
      rw [same]
      exact fun _ _ _ => rfl
  | cons action actions induction =>
      rcases waits with ⟨isWaiting, next, acts, rest⟩
      rcases guarded.acts acts with ⟨added, after, guardedNext⟩
      have stillMember := List.mem_append_left added member
      exact (induction stillMember rest after guardedNext).trans
        (guarded.stack_acts member isWaiting acts)

/-- The second program has its stack while the first starts and writes. -/
theorem secondProgram_stack_kept :
    ∃ machine first second later,
      Programs Layout.sample (fun _ => 0#8) (fun _ => True) machine
        [first, second] ∧
      Run (Acts Layout.sample) machine
        [.kernel .timer, .store 0x20001ffc#32 0xff#8] later ∧
      later.mem (first.pages.stack + 0xffc) = 0xff#8 ∧
      AgreeOn later.mem machine.mem second.pages.stack 4096 := by
  rcases Idle.exists_two Layout.sample (fun _ => 0#8) fun _ => True with
    ⟨machine, first, second, idle⟩
  rcases idle.starts (by simp) with ⟨started, taken, running⟩
  have acts : Acts Layout.sample machine (.kernel .timer) started :=
    .kernel (fun _ creation => by cases creation) taken
  have programs : Programs Layout.sample (fun _ => 0#8) (fun _ => True)
      started [first, second] :=
    .kernel idle.programs acts
  rcases programs_guarded programs with ⟨queues, guarded⟩
  have stored := guarded.userStore_stack List.mem_cons_self running
    (show 0xffc < 4096 by decide) 0xff#8
  have page := (guarded.distinct (show second ∈ _ by simp)).heapTask
  have idleWaits : machine.cpu.runningTss ≠
      BitVec.ofNat 32 (tss second.pages.task) := by
    rw [idle.hardware.running, idle.idle, tssOf, if_pos rfl]
    exact (tss_ne_kernTaskTss _ page).symm
  have firstWaits : started.cpu.runningTss ≠
      BitVec.ofNat 32 (tss second.pages.task) := by
    have one : first.pages = pagesAt 0 := guarded.numbered 0 first rfl
    have two : second.pages = pagesAt 1 := guarded.numbered 1 second rfl
    rw [running, one, two]
    decide
  have waits : Leads (Acts Layout.sample)
      (fun state => state.cpu.runningTss ≠
        BitVec.ofNat 32 (tss second.pages.task))
      machine [.kernel .timer, .store 0x20001ffc#32 0xff#8] _ :=
    .cons idleWaits acts (.single firstWaits (.store stored))
  refine ⟨machine, first, second, _, idle.programs,
    waits.mono fun _ _ => trivial, ?_, ?_⟩
  · dsimp only
    rw [store8_self]
  · exact stack_kept idle.programs (by simp) waits

end MagicalOs.Kernel.UserPrograms
