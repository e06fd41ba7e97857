import MagicalOs.Kernel.SavedContexts
import MagicalOs.Kernel.UserPrograms

/-!
# Tasks on one processor

The processor has one set of registers.  A step of the kernel which jumps to
another segment saves them there and loads those of the task it enters; what
the running code does to the registers in between is not restricted.

To a task this looks as if it had a processor of its own.  Its context, in the
processor while it runs and in its segment otherwise, and its stack are those
which its own steps would have given alone, whatever the kernel and the other
tasks have done in between.
-/

namespace MagicalOs.Kernel.Multitasking

open MagicalOs.Library.ByteMemory
open MagicalOs.Library.ByteMemory.Memory
open MagicalOs.Library.StackMachine (Context Register Segment)
open MagicalOs.Kernel.HeapPages
open MagicalOs.Kernel.MachineState
open MagicalOs.Kernel.TaskStructure
open MagicalOs.Kernel.TaskCreation
open MagicalOs.Kernel.TaskQueues
open MagicalOs.Kernel.KernelRuns
open MagicalOs.Kernel.QueueInvariant
open MagicalOs.Kernel.HeapRuns (TaskRecord newTask)
open MagicalOs.Kernel.TaskIsolation
open MagicalOs.Kernel.RunningSegments
open MagicalOs.Kernel.StableMemory
open MagicalOs.Kernel.UserPrograms
  (structs pagesAt recordsBy userStore Guarded Reaches Numbered)
open MagicalOs.Kernel.SavedContexts

/-! ## The registers of the processor -/

structure Processor where
  machine : Machine
  context : Context

/-- The far jump at the end of a step, if it leaves the running segment. -/
def switchContext (context : Context) (before after : Machine) : Processor :=
  if after.cpu.runningTss = before.cpu.runningTss then
    ⟨after, context⟩
  else
    let mem := saveContext after.mem before.cpu.runningTss.toNat context
    ⟨{ after with mem := mem },
      loadContext mem after.cpu.runningTss.toNat⟩

theorem switchContext_of_stays {context : Context} {machine after : Machine}
    (stays : after.cpu.runningTss = machine.cpu.runningTss) :
    switchContext context machine after = ⟨after, context⟩ :=
  if_pos stays

theorem cpu_switchContext (context : Context) (machine after : Machine) :
    (switchContext context machine after).machine.cpu = after.cpu := by
  rw [switchContext]
  split
  next => rfl
  next => rfl

inductive Action where
  | kernel (event : Event)
  | compute (context : Context)
  | store (address : Word) (value : Byte)

/-- The kernel, the running code and its stores. -/
inductive Acts (layout : Layout) (processor : Processor) :
    Action → Processor → Prop where
  | kernel {event : Event} {after : Machine}
      (executes : ∀ file, event = .taskInit file → file ∈ fsInit fsBaseAddr)
      (taken : Step layout processor.machine event after) :
      Acts layout processor (.kernel event)
        (switchContext processor.context processor.machine after)
  | compute (context : Context) :
      Acts layout processor (.compute context)
        { processor with context := context }
  | store {address : Word} {value : Byte} {after : Machine}
      (stored : userStore layout processor.machine address value =
        some after) :
      Acts layout processor (.store address value)
        { processor with machine := after }

/-- The tasks which an action creates. -/
def recordsOf (processor : Processor) : Action → List TaskRecord
  | .kernel event => recordsBy processor.machine event
  | .compute _ => []
  | .store _ _ => []

/-- The states of the processor, with the created tasks. -/
inductive Tasks (layout : Layout) (mem : Memory) :
    Processor → List TaskRecord → Prop where
  | boot (context : Context) : Tasks layout mem ⟨boot layout mem, context⟩ []
  | acts {processor after : Processor} {records : List TaskRecord}
      {action : Action} (before : Tasks layout mem processor records)
      (acts : Acts layout processor action after) :
      Tasks layout mem after (records ++ recordsOf processor action)

/-! ## Switching keeps the invariant -/

section Switching

variable {layout : Layout} {mem : Memory} {machine after : Machine}
  {processor next : Processor} {records : List TaskRecord}
  {record other : TaskRecord} {queues : Queues} {context : Context}
  {action : Action} {base : Word}

/-- The segment of a created task. -/
def segment (record : TaskRecord) : Word :=
  BitVec.ofNat 32 (tss record.pages.task)

theorem segment_toNat
    (guarded : Guarded layout machine records queues)
    (member : record ∈ records) :
    (segment record).toNat = tss record.pages.task := by
  have upper := (guarded.distinct member).heapTask.upper
  rw [segment, BitVec.toNat_ofNat, tss]
  omega

/-- The slots of a segment lie in its task structure, or in the kernel. -/
theorem slots_place
    (guarded : Guarded layout machine records queues)
    (known : IsSegment layout (structs records) base) :
    base.toNat + 96 ≤ 0x11000 ∨
      ∃ record ∈ records, base = segment record ∧
        base.toNat = tss record.pages.task := by
  rcases known with rfl | ⟨task, member, rfl⟩
  · left
    have below := layout.kernTaskTss_below
    rw [Descriptors.sizeofTss] at below
    rw [BitVec.toNat_ofNat]
    omega
  · right
    rcases List.mem_map.mp member with ⟨record, known, rfl⟩
    exact ⟨record, known, rfl, segment_toNat guarded known⟩

/-- What lies behind the kernel and outside the slots is not changed. -/
theorem save_agreeOn (guarded : Guarded layout machine records queues)
    (known : IsSegment layout (structs records) base) (mem : Memory)
    (context : Context) {start size : Nat} (above : 0x11000 ≤ start)
    (apart : ∀ record ∈ records, base = segment record →
      start + size ≤ record.pages.task + 44 ∨
        record.pages.task + 108 ≤ start) :
    AgreeOn (saveContext mem base.toNat context) mem start size := by
  have stored := saveContext_agreeOutside mem base.toNat context
  apply stored.agreeOn
  rcases slots_place guarded known with below | ⟨record, member, same, place⟩
  · omega
  · have outside := apart record member same
    rw [place, tss]
    omega

/-- Only task structures have slots. -/
theorem save_page (guarded : Guarded layout machine records queues)
    (known : IsSegment layout (structs records) base) (mem : Memory)
    (context : Context) {number : Nat} (kind : number % 4 ≠ 2) :
    AgreeOn (saveContext mem base.toNat context) mem (heapPage number)
      4096 := by
  apply save_agreeOn guarded known mem context
  · rw [heapPage_eq]
    omega
  · intro record member _
    rcases guarded.numbered.exists_number member with ⟨index, _, _, pages⟩
    have task : record.pages.task = heapPage (4 * index + 2) :=
      congrArg TaskPages.task pages
    rw [task, heapPage_eq, heapPage_eq]
    omega

theorem guarded_save (guarded : Guarded layout machine records queues)
    (known : IsSegment layout (structs records) base) (context : Context) :
    Guarded layout
      { machine with mem := saveContext machine.mem base.toNat context }
      records queues := by
  have task : ∀ record ∈ records, ∀ other ∈ records,
      record.pages.task = other.pages.task ∨
        record.pages.task + 4096 ≤ other.pages.task ∨
        other.pages.task + 4096 ≤ record.pages.task := by
    intro record member other otherMember
    have page := (guarded.distinct member).heapTask
    have otherPage := (guarded.distinct otherMember).heapTask
    by_cases same : record.pages.task = other.pages.task
    · exact .inl same
    · exact .inr (page.apart otherPage same)
  apply guarded.congr
  · intro record member
    have lower := (guarded.distinct member).heapTask.lower
    apply save_agreeOn guarded known _ context (by omega)
    intro other otherMember _
    have places := task record member other otherMember
    omega
  · intro record member
    rcases guarded.numbered.exists_number member with ⟨number, _, _, pages⟩
    rw [pages]
    exact save_page guarded known _ context (by omega)
  · intro record member
    rcases guarded.numbered.exists_number member with ⟨number, _, _, pages⟩
    rw [pages]
    exact save_page guarded known _ context (by omega)
  · intro record member
    have lower := (guarded.distinct member).heapTask.lower
    apply save_agreeOn guarded known _ context
    · rw [tss]
      omega
    · intro other otherMember _
      have places := task record member other otherMember
      rw [tss]
      omega

/-- A far jump keeps the invariant, whatever the registers hold. -/
theorem guarded_switchContext (guarded : Guarded layout after records queues)
    (known : IsSegment layout (structs records) machine.cpu.runningTss)
    (context : Context) :
    Guarded layout (switchContext context machine after).machine records
      queues := by
  rw [switchContext]
  split
  next => exact guarded
  next => exact guarded_save guarded known context

theorem guarded_acts
    (guarded : Guarded layout processor.machine records queues)
    (acts : Acts layout processor action next) :
    ∃ later, Guarded layout next.machine
      (records ++ recordsOf processor action) later := by
  cases acts with
  | @kernel event after executes taken =>
      rcases guarded.kernel executes taken with ⟨later, after⟩
      have known : IsSegment layout
          (structs (records ++ recordsBy processor.machine event))
          processor.machine.cpu.runningTss := by
        rw [UserPrograms.structs_append]
        exact guarded.own.running.append
      exact ⟨later, guarded_switchContext after known processor.context⟩
  | compute context =>
      refine ⟨queues, ?_⟩
      rw [recordsOf, List.append_nil]
      exact guarded
  | store stored =>
      refine ⟨queues, ?_⟩
      rw [recordsOf, List.append_nil]
      exact guarded.store stored

theorem tasks_guarded (tasks : Tasks layout mem processor records) :
    ∃ queues, Guarded layout processor.machine records queues := by
  induction tasks with
  | boot context => exact ⟨_, UserPrograms.boot_guarded layout mem⟩
  | acts before acts induction =>
      rcases induction with ⟨queues, guarded⟩
      exact guarded_acts guarded acts

end Switching

/-! ## What a task sees -/

/-- The registers and the stack page of a task. -/
@[ext]
structure View where
  context : Context
  stack : Nat → Byte

/-- The processor runs the task. -/
def Runs (processor : Processor) (record : TaskRecord) : Prop :=
  processor.machine.cpu.runningTss = segment record

instance (processor : Processor) (record : TaskRecord) :
    Decidable (Runs processor record) :=
  inferInstanceAs (Decidable (_ = _))

/-- The stack page, by the offset. -/
def stackOf (mem : Memory) (record : TaskRecord) (offset : Nat) : Byte :=
  if offset < 4096 then mem (record.pages.stack + offset) else 0#8

def viewOf (processor : Processor) (record : TaskRecord) : View where
  context :=
    if Runs processor record then processor.context
    else loadContext processor.machine.mem (tss record.pages.task)
  stack := stackOf processor.machine.mem record

/-- The effect of an action on a processor with one task. -/
def View.act (view : View) : Action → View
  | .kernel _ => view
  | .compute context => { view with context := context }
  | .store address value =>
      if address.toNat / 4096 = 0x20001 then
        { view with
          stack := Function.update view.stack (address.toNat % 4096) value }
      else
        view

/-- A run, with the actions which are taken while the task runs. -/
def Ran (layout : Layout) (record : TaskRecord) (processor : Processor) :
    List Action → List Action → Processor → Prop
  | [], own, last => own = [] ∧ last = processor
  | action :: rest, own, last =>
      ∃ next, Acts layout processor action next ∧
        ∃ later, Ran layout record next rest later last ∧
          own = if Runs processor record then action :: later else later

section Views

variable {layout : Layout} {mem after : Memory} {machine : Machine}
  {processor next last : Processor} {records : List TaskRecord}
  {record other : TaskRecord} {queues : Queues} {context : Context}
  {action : Action} {actions own : List Action}

theorem stackOf_congr (agree : AgreeOn after mem record.pages.stack 4096) :
    stackOf after record = stackOf mem record := by
  funext offset
  rw [stackOf, stackOf]
  split
  next inside => exact agree _ (by omega) (by omega)
  next => rfl

/-- Two tasks have segments of their own. -/
theorem eq_of_segment (guarded : Guarded layout machine records queues)
    (member : record ∈ records) (known : other ∈ records)
    (same : segment other = segment record) : other = record := by
  have place := segment_toNat guarded member
  have otherPlace := segment_toNat guarded known
  rw [same, place, tss, tss] at otherPlace
  rcases guarded.numbered.exists_number member with
    ⟨number, _, found, pages⟩
  rcases guarded.numbered.exists_number known with
    ⟨index, _, otherFound, otherPages⟩
  have task : record.pages.task = heapPage (4 * number + 2) :=
    congrArg TaskPages.task pages
  have otherTask : other.pages.task = heapPage (4 * index + 2) :=
    congrArg TaskPages.task otherPages
  rw [task, otherTask, heapPage_eq, heapPage_eq] at otherPlace
  have equal : index = number := by omega
  rw [equal, found] at otherFound
  exact (Option.some.inj otherFound).symm

theorem viewOf_of_runs (runs : Runs processor record) :
    viewOf processor record =
      { context := processor.context
        stack := stackOf processor.machine.mem record } := by
  rw [viewOf, if_pos runs]

theorem viewOf_of_waits (waits : ¬Runs processor record) :
    viewOf processor record =
      { context := loadContext processor.machine.mem (tss record.pages.task)
        stack := stackOf processor.machine.mem record } := by
  rw [viewOf, if_neg waits]

/-- The view consists of the context and of one page. -/
theorem view_of_waiting (waits : ¬Runs processor record)
    (waitsNext : ¬Runs next record)
    (slots : AgreeOn next.machine.mem processor.machine.mem
      (tss record.pages.task + 32) 64)
    (stack : AgreeOn next.machine.mem processor.machine.mem
      record.pages.stack 4096) :
    viewOf next record = viewOf processor record := by
  rw [viewOf_of_waits waits, viewOf_of_waits waitsNext,
    loadContext_congr slots, stackOf_congr stack]

theorem view_of_running (runs : Runs processor record)
    (runsNext : Runs next record)
    (context : next.context = processor.context)
    (stack : AgreeOn next.machine.mem processor.machine.mem
      record.pages.stack 4096) :
    viewOf next record = viewOf processor record := by
  rw [viewOf_of_runs runs, viewOf_of_runs runsNext, context,
    stackOf_congr stack]

/-- A store to the file of a task does not reach its stack. -/
theorem data_agreeOn (guarded : Guarded layout machine records queues)
    (member : record ∈ records) {physical : Nat} {offset : Nat}
    (inPage : offset < 4096)
    (place : physical = dataPage record.file * 4096 + offset)
    (mem : Memory) (value : Byte) :
    AgreeOn (mem.store8 physical value) mem record.pages.stack 4096 := by
  have low := dataPage_fsInit.1 record.file
    (guarded.files record member)
  have high := (guarded.distinct member).heapStack.lower
  have start : heapStartAddr = 0x100000 := rfl
  have stored := store8_agreeOutside mem physical value
  apply stored.agreeOn
  omega

/-- A store to the stack changes one byte of it. -/
theorem stackOf_store8 {offset : Nat} (inPage : offset < 4096) (mem : Memory)
    (value : Byte) :
    stackOf (mem.store8 (record.pages.stack + offset) value) record =
      Function.update (stackOf mem record) offset value := by
  funext other
  by_cases same : other = offset
  · rw [same, Function.update_self, stackOf, if_pos inPage, store8_self]
  · rw [Function.update_of_ne same, stackOf, stackOf]
    split
    next =>
      apply store8_agreeOutside
      omega
    next => rfl

theorem view_store {address : Word} {value : Byte} {after : Machine}
    (guarded : Guarded layout processor.machine records queues)
    (member : record ∈ records)
    (stored : userStore layout processor.machine address value =
      some after) :
    viewOf { processor with machine := after } record =
      if Runs processor record then
        (viewOf processor record).act (.store address value)
      else viewOf processor record := by
  have inPage : address.toNat % 4096 < 4096 := Nat.mod_lt _ (by decide)
  rcases guarded.userStore_eq stored with
    ⟨other, known, physical, running, reaches, rfl⟩
  by_cases runs : Runs processor record
  · have isRecord : other = record :=
      eq_of_segment guarded member known (running.symm.trans runs)
    subst isRecord
    rw [if_pos runs, View.act]
    rcases reaches with ⟨inData, place⟩ | ⟨onStack, rfl⟩
    · rw [if_neg (by omega)]
      exact view_of_running runs runs rfl
        (data_agreeOn guarded member inPage place _ _)
    · rw [if_pos onStack, viewOf_of_runs runs]
      dsimp only
      rw [← stackOf_store8 inPage]
      exact viewOf_of_runs runs
  · have different : other ≠ record := by
      rintro rfl
      exact runs running
    rcases guarded.numbered.exists_number member with
      ⟨number, _, found, pages⟩
    rcases guarded.numbered.exists_number known with
      ⟨index, _, otherFound, otherPages⟩
    have apart : number ≠ index := by
      rintro rfl
      exact different (Option.some.inj (otherFound.symm.trans found))
    have stack : AgreeOn (processor.machine.mem.store8 physical value)
        processor.machine.mem (heapPage (4 * number + 3)) 4096 := by
      apply guarded.agreeOn known reaches
      rw [otherPages, pagesAt, Ne, heapPage_inj]
      omega
    have struct : AgreeOn (processor.machine.mem.store8 physical value)
        processor.machine.mem (heapPage (4 * number + 2)) 4096 := by
      apply guarded.agreeOn known reaches
      exact guarded.numbered.ne_stack known (by omega)
    have waitsNext : ¬Runs
        { processor with
          machine :=
            { processor.machine with
              mem := processor.machine.mem.store8 physical value } }
        record :=
      runs
    rw [if_neg runs]
    apply view_of_waiting runs waitsNext
    · have task : record.pages.task = heapPage (4 * number + 2) :=
        congrArg TaskPages.task pages
      rw [task, tss]
      exact struct.sub _ 64 (by omega) (by omega)
    · rw [pages]
      exact stack

theorem view_kernel {event : Event} {after : Machine}
    (guarded : Guarded layout processor.machine records queues)
    (member : record ∈ records)
    (taken : Step layout processor.machine event after) :
    viewOf (switchContext processor.context processor.machine after) record =
      viewOf processor record := by
  have holds := guarded.invariant
  have known := guarded.own.running
  have place := segment_toNat guarded member
  rcases guarded.numbered.exists_number member with
    ⟨number, small, found, pages⟩
  have task : record.pages.task = heapPage (4 * number + 2) :=
    congrArg TaskPages.task pages
  have stack : record.pages.stack = heapPage (4 * number + 3) :=
    congrArg TaskPages.stack pages
  have struct := (guarded.numbered.stableBlock_struct small).agreeOn holds
    taken
  rw [← task] at struct
  have slots : AgreeOn after.mem processor.machine.mem
      (tss record.pages.task + 32) 64 :=
    struct.sub _ 64 (by rw [tss]; omega) (by rw [tss]; omega)
  have stackBlock :
      StableBlock (structs records) (heapPage (4 * number + 3)) 4096 :=
    guarded.numbered.stableBlock (by omega) (by omega)
  have kept := stackBlock.agreeOn holds taken
  rw [← stack] at kept
  rw [switchContext]
  split
  next same =>
    by_cases runs : Runs processor record
    · exact view_of_running runs (same.trans runs) rfl kept
    · exact view_of_waiting runs (mt same.symm.trans runs) slots kept
  next left =>
    have saved : AgreeOn
        (saveContext after.mem processor.machine.cpu.runningTss.toNat
          processor.context) after.mem record.pages.stack 4096 := by
      rw [stack]
      exact save_page guarded known _ _ (by omega)
    by_cases runs : Runs processor record
    · have here : processor.machine.cpu.runningTss = segment record := runs
      have waitsNext : ¬Runs (switchContext processor.context
          processor.machine after) record := by
        rw [switchContext, if_neg left]
        exact fun again => left (again.trans here.symm)
      rw [switchContext, if_neg left] at waitsNext
      rw [viewOf_of_waits waitsNext, viewOf_of_runs runs]
      dsimp only
      rw [stackOf_congr (saved.trans kept), here, place,
        loadContext_saveContext]
    · have savedSlots : AgreeOn
          (saveContext after.mem processor.machine.cpu.runningTss.toNat
            processor.context) after.mem (tss record.pages.task + 32) 64 := by
        apply save_agreeOn guarded known
        · rw [task, heapPage_eq, tss]
          omega
        · intro other otherMember same
          rcases guarded.numbered.exists_number otherMember with
            ⟨index, _, otherFound, otherPages⟩
          have otherTask : other.pages.task = heapPage (4 * index + 2) :=
            congrArg TaskPages.task otherPages
          have apart : index ≠ number := by
            rintro rfl
            rw [found] at otherFound
            cases otherFound
            exact runs same
          rw [task, otherTask, heapPage_eq, heapPage_eq, tss]
          omega
      rw [viewOf_of_waits runs, ← loadContext_congr (savedSlots.trans slots),
        ← stackOf_congr (saved.trans kept)]
      by_cases entered : after.cpu.runningTss = segment record
      · have runsNext : Runs (switchContext processor.context
            processor.machine after) record := by
          rw [switchContext, if_neg left]
          exact entered
        rw [switchContext, if_neg left] at runsNext
        rw [viewOf_of_runs runsNext]
        dsimp only
        rw [entered, place]
      · have waitsNext : ¬Runs (switchContext processor.context
            processor.machine after) record := by
          rw [switchContext, if_neg left]
          exact entered
        rw [switchContext, if_neg left] at waitsNext
        exact viewOf_of_waits waitsNext

/-- One action: its own ones have their effect, the others have none. -/
theorem view_acts
    (guarded : Guarded layout processor.machine records queues)
    (member : record ∈ records) (acts : Acts layout processor action next) :
    viewOf next record =
      if Runs processor record then (viewOf processor record).act action
      else viewOf processor record := by
  cases acts with
  | kernel executes taken =>
      rw [view_kernel guarded member taken]
      split
      · rfl
      · rfl
  | compute context =>
      by_cases runs : Runs processor record
      · have runsNext : Runs { processor with context := context } record :=
          runs
        rw [if_pos runs, viewOf_of_runs runs, viewOf_of_runs runsNext]
        rfl
      · have waitsNext : ¬Runs { processor with context := context } record :=
          runs
        rw [if_neg runs, viewOf_of_waits runs, viewOf_of_waits waitsNext]
  | store stored => exact view_store guarded member stored

/--
A task has the context and the stack which its own actions alone would have
given it, however often it has been switched away and back.
-/
theorem ran_view (tasks : Tasks layout mem processor records)
    (member : record ∈ records)
    (ran : Ran layout record processor actions own last) :
    viewOf last record = own.foldl View.act (viewOf processor record) := by
  induction actions generalizing processor records own with
  | nil =>
      rcases ran with ⟨rfl, rfl⟩
      rfl
  | cons action actions induction =>
      rcases ran with ⟨next, acts, later, rest, rfl⟩
      rcases tasks_guarded tasks with ⟨queues, guarded⟩
      have step := view_acts guarded member acts
      have known := List.mem_append_left (recordsOf processor action) member
      rw [induction (tasks.acts acts) known rest, step]
      split
      · rfl
      · rfl

end Views

/-! ## The first context -/

/-- The registers which `task_init` assigns; the others keep old contents. -/
structure EntryContext (context : Context) : Prop where
  eip : context.eip = 0x20000020#32
  eflags : context.eflags = 0x00000200#32
  esp : context.registers .esp = 0x20001800#32
  cs : context.selectors .cs = 0x0033#16
  others : ∀ segment, segment ≠ .cs → context.selectors segment = 0x003b#16

section Creation

variable {layout : Layout} {mem : Memory} {processor created last : Processor}
  {records : List TaskRecord} {file : File} {actions own : List Action}

theorem load32_of_store32 {address place : Nat} (value : Word)
    (apart : place + 4 ≤ address ∨ address + 4 ≤ place) :
    (mem.store32 address value).load32 place = mem.load32 place :=
  ((store32_agreeOutside mem address value).agreeOn place 4 apart).load32

theorem load32_of_store16 {address place : Nat} (value : Half)
    (apart : place + 4 ≤ address ∨ address + 2 ≤ place) :
    (mem.store16 address value).load32 place = mem.load32 place :=
  ((store16_agreeOutside mem address value).agreeOn place 4 apart).load32

theorem load16_of_store32 {address place : Nat} (value : Word)
    (apart : place + 2 ≤ address ∨ address + 4 ≤ place) :
    (mem.store32 address value).load16 place = mem.load16 place :=
  ((store32_agreeOutside mem address value).agreeOn place 2 apart).load16

theorem load16_of_store16 {address place : Nat} (value : Half)
    (apart : place + 2 ≤ address ∨ address + 2 ≤ place) :
    (mem.store16 address value).load16 place = mem.load16 place :=
  ((store16_agreeOutside mem address value).agreeOn place 2 apart).load16

theorem initTss_entry (mem : Memory) (task directory : Nat) :
    EntryContext (loadContext (initTss mem task directory) (tss task)) := by
  constructor
  · simp (disch := omega) only [loadContext, offset, initTss,
      load32_of_store32, load32_of_store16, load32_store32_self]
  · simp (disch := omega) only [loadContext, offset, initTss,
      load32_of_store32, load32_of_store16, load32_store32_self]
  · simp (disch := omega) only [loadContext, offset, initTss,
      load32_of_store32, load32_of_store16, load32_store32_self]
  · simp (disch := omega) only [loadContext, offset, initTss,
      load16_of_store32, load16_of_store16, load16_store16_self]
    decide
  · intro segment notCs
    cases segment with
    | cs => exact absurd rfl notCs
    | _ =>
        simp (disch := omega) only [loadContext, offset, initTss,
          load16_of_store32, load16_of_store16, load16_store16_self]
        decide

/-- A creation leaves the processor to the code which has asked for it. -/
theorem cpu_taskInit {machine : Machine}
    (free : FourFree machine.heapAllocTable) :
    (taskInit machine file).cpu = machine.cpu := by
  rw [taskInit_of_free free]
  rfl

/-- The new task has a segment which no task had before. -/
theorem segment_fresh {machine : Machine} {queues : Queues}
    (guarded : Guarded layout machine records queues)
    (free : FourFree machine.heapAllocTable) :
    machine.cpu.runningTss ≠
      segment (newTask machine.heapAllocTable file) := by
  have page := (nextTaskPages_distinct free).heapTask
  have pages := guarded.nextTaskPages free
  have room := guarded.invariant.room_of_free free
  rw [UserPrograms.structs_length] at room
  rw [segment, newTask_pages free file]
  rcases guarded.own.running with kernel | ⟨task, member, running⟩
  · rw [kernel]
    exact (UserPrograms.tss_ne_kernTaskTss layout page).symm
  · rcases guarded.numbered.struct member with ⟨number, small, rfl⟩
    intro same
    have equal := congrArg BitVec.toNat (running.symm.trans same)
    rw [pages, BitVec.toNat_ofNat, BitVec.toNat_ofNat, tss, tss] at equal
    simp only [pagesAt, heapPage_eq] at equal
    have most : maxHeapPages = 3584 := rfl
    omega

/-- A waiting task has the context which its segment says. -/
theorem viewOf_switchContext {machine after : Machine} {record : TaskRecord}
    (context : Context) (stays : after.cpu = machine.cpu)
    (waits : machine.cpu.runningTss ≠ segment record) :
    (viewOf (switchContext context machine after) record).context =
      loadContext after.mem (tss record.pages.task) := by
  have same : after.cpu.runningTss = machine.cpu.runningTss :=
    congrArg (fun cpu => cpu.runningTss) stays
  have waitsNext : ¬Runs ⟨after, context⟩ record :=
    fun runs => waits (same.symm.trans runs)
  rw [switchContext_of_stays same, viewOf_of_waits waitsNext]

theorem newTask_entry (tasks : Tasks layout mem processor records)
    (acts : Acts layout processor (.kernel (.taskInit file)) created) :
    EntryContext
      (viewOf created
        (newTask processor.machine.heapAllocTable file)).context := by
  rcases tasks_guarded tasks with ⟨queues, guarded⟩
  cases acts with
  | @kernel _ after executes taken =>
      rcases taken with ⟨free, iterations, ran⟩
      have free : FourFree processor.machine.heapAllocTable := free
      have stays : (taskInit processor.machine file).cpu =
          processor.machine.cpu :=
        cpu_taskInit free
      have block : AgreeOn (taskInit processor.machine file).mem
          (initialized processor.machine file).mem
          (tss (newTask processor.machine.heapAllocTable file).pages.task)
          104 :=
        guarded.newTask_agreeOn free
      have slots := block.sub _ 64 (Nat.le_add_right _ 32) (by omega)
      have fresh : processor.machine.cpu.runningTss ≠
          segment (newTask processor.machine.heapAllocTable file) :=
        segment_fresh guarded free
      have made : after = taskInit processor.machine file :=
        (Option.some.inj ran).symm
      rw [← made] at stays slots
      rw [viewOf_switchContext _ stays fresh, loadContext_congr slots,
        newTask_pages free file]
      exact initTss_entry _ _ _

/--
Every task starts as `task_init` has set it up, and from then on it has the
registers and the stack which its own actions give it.  The kernel switches
to other tasks and back, creates tasks and moves its queues; the other tasks
compute and store what they want: none of this can be seen from the task.
-/
theorem task_life (tasks : Tasks layout mem processor records)
    (acts : Acts layout processor (.kernel (.taskInit file)) created)
    (ran : Ran layout (newTask processor.machine.heapAllocTable file) created
      actions own last) :
    EntryContext
        (viewOf created
          (newTask processor.machine.heapAllocTable file)).context ∧
      viewOf last (newTask processor.machine.heapAllocTable file) =
        own.foldl View.act
          (viewOf created
            (newTask processor.machine.heapAllocTable file)) := by
  constructor
  · exact newTask_entry tasks acts
  · have member : newTask processor.machine.heapAllocTable file ∈
        records ++ recordsOf processor (.kernel (.taskInit file)) :=
      List.mem_append_right _ List.mem_cons_self
    exact ran_view (tasks.acts acts) member ran

end Creation

def sampleContext : Context where
  eip := 0x7e00#32
  eflags := 0#32
  registers _ := 0#32
  selectors _ := 0x0008#16

section Sample

variable {layout : Layout} {processor next last : Processor}
  {record : TaskRecord} {action : Action} {actions own : List Action}

theorem Ran.others (waits : ¬Runs processor record)
    (acts : Acts layout processor action next)
    (rest : Ran layout record next actions own last) :
    Ran layout record processor (action :: actions) own last :=
  ⟨next, acts, own, rest, (if_neg waits).symm⟩

theorem Ran.owns (runs : Runs processor record)
    (acts : Acts layout processor action next)
    (rest : Ran layout record next actions own last) :
    Ran layout record processor (action :: actions) (action :: own) last :=
  ⟨next, acts, own, rest, (if_pos runs).symm⟩

/-- The timer lets a new task run, which loads its registers and pushes. -/
theorem exists_ran :
    ∃ processor created last,
      Tasks Layout.sample (fun _ => 0#8) processor [] ∧
      Acts Layout.sample processor (.kernel (.taskInit fshell)) created ∧
      Ran Layout.sample (newTask processor.machine.heapAllocTable fshell)
        created
        [.kernel .timer, .compute sampleContext, .store 0x20001ffc#32 0xff#8]
        [.compute sampleContext, .store 0x20001ffc#32 0xff#8] last := by
  have shell : fshell ∈ fsInit fsBaseAddr := by decide
  have idle := UserPrograms.Idle.boot Layout.sample (fun _ => 0#8)
    fun _ => True
  have tasks : Tasks Layout.sample (fun _ => 0#8)
      ⟨boot Layout.sample fun _ => 0#8, sampleContext⟩ [] :=
    .boot sampleContext
  generalize boot Layout.sample (fun _ => 0#8) = machine at idle tasks
  rcases idle.creates (by decide) shell with ⟨creates, created⟩
  rcases created.starts (by decide) with ⟨started, timer, running⟩
  have free : FourFree machine.heapAllocTable := creates.1
  have stays : (taskInit machine fshell).cpu.runningTss =
      machine.cpu.runningTss :=
    congrArg (fun cpu => cpu.runningTss) (cpu_taskInit free)
  clear created
  generalize taskInit machine fshell = made at creates timer stays
  rcases tasks_guarded tasks with ⟨queues, guarded⟩
  have waits : ¬Runs ⟨made, sampleContext⟩
      (newTask machine.heapAllocTable fshell) :=
    fun runs => segment_fresh guarded free (stays.symm.trans runs)
  have executes : ∀ file, Event.taskInit fshell = .taskInit file →
      file ∈ fsInit fsBaseAddr := by
    rintro file ⟨⟩
    exact shell
  have first : Acts Layout.sample ⟨machine, sampleContext⟩
      (.kernel (.taskInit fshell)) (switchContext sampleContext machine made) :=
    .kernel executes creates
  rw [switchContext_of_stays stays] at first
  have second : Acts Layout.sample ⟨made, sampleContext⟩ (.kernel .timer)
      (switchContext sampleContext made started) :=
    .kernel (fun _ creation => by cases creation) timer
  rcases tasks_guarded ((tasks.acts first).acts second) with ⟨later, guarded⟩
  have runs : Runs (switchContext sampleContext made started)
      (newTask machine.heapAllocTable fshell) := by
    rw [Runs, cpu_switchContext]
    exact running
  have member : newTask machine.heapAllocTable fshell ∈
      [] ++ recordsOf ⟨machine, sampleContext⟩ (.kernel (.taskInit fshell)) ++
        recordsOf ⟨made, sampleContext⟩ (.kernel .timer) :=
    List.mem_cons_self
  have stored := guarded.userStore_stack member runs
    (show 0xffc < 4096 by decide) 0xff#8
  exact ⟨⟨machine, sampleContext⟩, ⟨made, sampleContext⟩, _, tasks, first,
    .others waits second (.owns runs (.compute sampleContext)
      (.owns runs (.store stored) ⟨rfl, rfl⟩))⟩

theorem shell_life :
    ∃ created last record,
      EntryContext (viewOf created record).context ∧
      viewOf last record =
        { context := sampleContext
          stack :=
            Function.update (viewOf created record).stack 0xffc 0xff#8 } := by
  rcases exists_ran with ⟨processor, created, last, tasks, acts, ran⟩
  rcases task_life tasks acts ran with ⟨entry, view⟩
  exact ⟨created, last, _, entry, view.trans rfl⟩

end Sample

end MagicalOs.Kernel.Multitasking
