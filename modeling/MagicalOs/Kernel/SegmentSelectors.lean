import MagicalOs.Kernel.TaskSegments

/-!
# Descriptors of a sequence of creations

`task_init` chooses the index of a descriptor from an unbounded counter, and
`init_gdt` does not check it.  The table has room for two tasks: their
descriptors, and the selectors patched into their switch routines, are right.
The third creation overwrites the user code segment, and no later one repairs
it.
-/

namespace MagicalOs.Kernel.SegmentSelectors

open MagicalOs.Library.BitField
open MagicalOs.Library.ByteMemory
open MagicalOs.Library.ByteMemory.Memory
open MagicalOs.Kernel.Descriptors
open MagicalOs.Kernel.Descriptors.SegmentDescriptor
open MagicalOs.Kernel.HeapPages
open MagicalOs.Kernel.MachineState
open MagicalOs.Kernel.TaskStructure
open MagicalOs.Kernel.TaskCreation
open MagicalOs.Kernel.SchedQueues
open MagicalOs.Kernel.Scheduler
open MagicalOs.Kernel.KernelRuns
open MagicalOs.Kernel.QueueInvariant
open MagicalOs.Kernel.TaskSegments

/-- A sequence of `task_init` calls. -/
def taskInits (machine : Machine) (files : List File) : Machine :=
  files.foldl taskInit machine

/-- A task structure, and the index its descriptor was installed at. -/
structure CreatedTask where
  task : Nat
  idx : Nat
  deriving DecidableEq

/-- What the calls of a sequence create, in order. -/
def createdTasks (machine : Machine) : List File → List CreatedTask
  | [] => []
  | file :: rest =>
      { task := (allocatePages machine.heapAllocTable).1.task
        idx := tssIndex machine.taskIdCounter } ::
        createdTasks (taskInit machine file) rest

/-- The descriptors every selector of the kernel relies on. -/
def reservedIndices : List Nat := [0, 1, 2, 3, 6, 7]

/-- The descriptor table and the switch routines after a sequence of calls. -/
structure SelectorsCorrect (machine : Machine) (files : List File) :
    Prop where
  inTable : ∀ entry ∈ createdTasks machine files, entry.idx < gdtSize
  distinct : ((createdTasks machine files).map CreatedTask.idx).Nodup
  installed : ∀ entry ∈ createdTasks machine files,
    ((taskInits machine files).gdt entry.idx).base =
      BitVec.ofNat 32 (tss entry.task)
  reserved : ∀ idx ∈ reservedIndices,
    (taskInits machine files).gdt idx = machine.gdt idx
  selector : ∀ entry ∈ createdTasks machine files,
    contextSwitchSelector (taskInits machine files).mem entry.task =
      BitVec.ofNat 16 (8 * entry.idx)

@[simp]
theorem taskInits_nil (machine : Machine) : taskInits machine [] = machine :=
  rfl

@[simp]
theorem taskInits_cons (machine : Machine) (file : File) (rest : List File) :
    taskInits machine (file :: rest) = taskInits (taskInit machine file) rest :=
  rfl

/-! ## The third creation -/

section Overwritten

variable {layout : Layout} {mem : Memory} {machine : Machine} {file : File}
  {files : List File}

/-- An index where a segment was installed keeps the limit of one. -/
theorem limit0_taskInits (idx : Nat) (files : List File)
    (installed : (machine.gdt idx).limit0 = 104#16) :
    ((taskInits machine files).gdt idx).limit0 = 104#16 := by
  induction files generalizing machine with
  | nil => exact installed
  | cons file rest induction =>
      apply induction
      rw [(taskInit_table machine file).1, initGdt]
      by_cases here : idx = tssIndex machine.taskIdCounter
      · rw [here, Function.update_self, limit0_install]
        decide
      · rw [Function.update_of_ne here]
        exact installed

/-- From the third creation on, the user code segment has this limit. -/
theorem limit0_user (layout : Layout) (mem : Memory)
    (first second third : File) (rest : List File) :
    ((taskInits (boot layout mem)
      (first :: second :: third :: rest)).gdt 6).limit0 = 104#16 := by
  rw [taskInits_cons, taskInits_cons, taskInits_cons]
  apply limit0_taskInits 6 rest
  have idx : tssIndex
      (taskInit (taskInit (boot layout mem) first) second).taskIdCounter =
        6 := by
    rw [(taskInit_table _ second).2, (taskInit_table _ first).2]
    rfl
  rw [(taskInit_table _ third).1, idx, initGdt, Function.update_self,
    limit0_install]
  decide

theorem limit0_boot (layout : Layout) (mem : Memory) :
    ((boot layout mem).gdt 6).limit0 = 0xffff#16 := by
  rw [boot_gdt, setTssType, Function.update_of_ne (by omega), initGdt,
    Function.update_of_ne (by omega)]
  decide

/-- With the user code segment the table of the boot state is lost. -/
theorem not_selectorsCorrect_of_three (layout : Layout) (mem : Memory)
    (first second third : File) (rest : List File) :
    ¬SelectorsCorrect (boot layout mem)
      (first :: second :: third :: rest) := by
  intro correct
  have user := correct.reserved 6 (by decide)
  have limit := limit0_user layout mem first second third rest
  rw [user, limit0_boot] at limit
  revert limit
  decide

end Overwritten

/-! ## The first two creations -/

section First

variable {layout : Layout} {mem : Memory} {first second : File}

/-- The selector of a task which has a descriptor of its own. -/
private theorem selector_of_installed {machine : Machine}
    {created : List Nat} {index task : Nat}
    (installed : Installed layout machine created)
    (found : created[index]? = some task) (small : index < 2) :
    contextSwitchSelector machine.mem task =
      BitVec.ofNat 16 (8 * (index + 4)) := by
  rw [installed.selector index task found]
  have range : index = 0 ∨ index = 1 := by omega
  rcases range with rfl | rfl
  · decide
  · decide

private theorem base_of_installed {machine : Machine}
    {created : List Nat} {index task : Nat}
    (installed : Installed layout machine created)
    (page : IsHeapPage task)
    (found : created[index]? = some task) (small : index < 2) :
    (machine.gdt (index + 4)).base = BitVec.ofNat 32 (tss task) := by
  have base := installed.base (index + 1) (by omega) task found
  rw [tssOf, if_neg page.ne_null] at base
  exact base

/-- What a short sequence of creations leaves behind. -/
private structure Sequence (layout : Layout) (machine : Machine)
    (files : List File) (created new : List Nat) : Prop where
  installed : Installed layout (taskInits machine files) (created ++ new)
  invariant : ∃ queues,
    Invariant (taskInits machine files) (created ++ new) queues
  indices : (createdTasks machine files).map CreatedTask.idx =
    List.range' (created.length + 4) files.length
  tasks : ∀ entry ∈ createdTasks machine files,
    (created ++ new)[entry.idx - 4]? = some entry.task
  reserved : ∀ idx ∈ reservedIndices,
    (taskInits machine files).gdt idx = machine.gdt idx

private theorem sequence_of_few {machine : Machine} {queues : TaskQueues.Queues}
    {created : List Nat} (files : List File)
    (holds : Invariant machine created queues)
    (installed : Installed layout machine created)
    (few : created.length + files.length ≤ 2) :
    ∃ new, Sequence layout machine files created new := by
  induction files generalizing machine created queues with
  | nil =>
      refine ⟨[], ?_, ⟨queues, ?_⟩, rfl, ?_, ?_⟩
      · simpa using installed
      · simpa using holds
      · intro entry member
        cases member
      · exact fun idx member => rfl
  | cons file rest induction =>
      rw [List.length_cons] at few
      have free := holds.free (by omega)
      have counter := installed.counter_toNat holds.room
      have invariant : Invariant (taskInit machine file)
          (created ++ [(nextTaskPages machine.heapAllocTable).task]) _ :=
        holds.taskInit free
      have fixed : Installed layout (taskInit machine file)
          (created ++ [(nextTaskPages machine.heapAllocTable).task]) :=
        installed.taskInit holds free
      have idx : tssIndex machine.taskIdCounter = created.length + 4 := by
        rw [tssIndex, counter, gdtIdxOfs]
      have pages := allocatePages_of_free free
      have length :
          (created ++ [(nextTaskPages machine.heapAllocTable).task]).length =
            created.length + 1 := by
        rw [List.length_append, List.length_singleton]
      rcases induction invariant fixed (by rw [length]; omega) with
        ⟨new, sequence⟩
      refine ⟨(nextTaskPages machine.heapAllocTable).task :: new,
        ?_, ?_, ?_, ?_, ?_⟩
      · simpa using sequence.installed
      · simpa using sequence.invariant
      · rw [createdTasks, List.map_cons, idx, sequence.indices, length,
          List.length_cons, List.range'_succ]
      · intro entry member
        rw [createdTasks, pages, idx] at member
        rcases List.mem_cons.mp member with rfl | later
        · simp
        · simpa using sequence.tasks entry later
      · intro other member
        have elsewhere : other ≠ created.length + 4 := by
          simp only [reservedIndices, List.mem_cons, List.not_mem_nil,
            or_false] at member
          omega
        have kept := taskInit_descriptor installed holds.room free file other
        rw [if_neg elsewhere] at kept
        exact (sequence.reserved other member).trans kept

private theorem Sequence.indices_between {machine : Machine}
    {files : List File} {new : List Nat} {entry : CreatedTask}
    (sequence : Sequence layout machine files [] new)
    (member : entry ∈ createdTasks machine files) :
    4 ≤ entry.idx ∧ entry.idx < 4 + files.length := by
  have inRange :
      entry.idx ∈ (createdTasks machine files).map CreatedTask.idx :=
    List.mem_map_of_mem member
  rw [sequence.indices, List.mem_range'_1] at inRange
  simpa using inRange

/-- The first two creations have descriptors of their own. -/
theorem selectorsCorrect_of_few (layout : Layout) (mem : Memory)
    (files : List File) (few : files.length ≤ 2) :
    SelectorsCorrect (boot layout mem) files := by
  rcases sequence_of_few files (boot_invariant layout mem)
    (boot_installed layout mem) (by simpa using few) with ⟨new, sequence⟩
  rcases sequence.invariant with ⟨queues, invariant⟩
  constructor
  · intro entry member
    have bound := sequence.indices_between member
    rw [gdtSize]
    omega
  · rw [sequence.indices]
    exact List.nodup_range'
  · intro entry member
    have bound := sequence.indices_between member
    have found := sequence.tasks entry member
    have page := invariant.represents.pages entry.task
      (invariant.perm.mem_iff.mpr (List.mem_of_getElem? found))
    have base := base_of_installed sequence.installed page found (by omega)
    rwa [Nat.sub_add_cancel bound.1] at base
  · exact sequence.reserved
  · intro entry member
    have bound := sequence.indices_between member
    have found := sequence.tasks entry member
    have selector :=
      selector_of_installed sequence.installed found (by omega)
    rwa [Nat.sub_add_cancel bound.1] at selector

end First

/-- The selectors are right exactly while at most two tasks are created. -/
theorem selectorsCorrect_iff (layout : Layout) (mem : Memory)
    (files : List File) :
    SelectorsCorrect (boot layout mem) files ↔ files.length ≤ 2 := by
  constructor
  · intro correct
    by_contra many
    match files, many with
    | [], few => exact few (by simp)
    | [_], few => exact few (by simp)
    | [_, _], few => exact few (by simp)
    | first :: second :: third :: rest, _ =>
        exact not_selectorsCorrect_of_three layout mem first second third rest
          correct
  · exact selectorsCorrect_of_few layout mem files

/-- Three creations overwrite the user code segment. -/
theorem threeTasks_not_selectorsCorrect :
    ¬SelectorsCorrect (boot Layout.sample fun _ => 0#8)
      [{ name := 0x12000, dataBaseAddr := 0x12020 },
        { name := 0x13000, dataBaseAddr := 0x13020 },
        { name := 0x13000, dataBaseAddr := 0x13020 }] :=
  not_selectorsCorrect_of_three Layout.sample (fun _ => 0#8) _ _ _ _

end MagicalOs.Kernel.SegmentSelectors
