import MagicalOs.Kernel.TaskStructure
import MagicalOs.Library.LinkRing

/-!
# The queues of the scheduler

The three queues of `sched.c` are manipulated by three copies of the same two
routines.  Each copy is kept under its own name as an instance of one pair of
definitions, `queueEnq` and `queueDel`, which work on a queue head and on the
link fields of the task structures.

`QueueRing` says that a queue holds given tasks in ring order.  The two
specifications of the module are that `queueEnq` appends a task which is on no
queue, and that `queueDel` erases a task of the ring.
-/

namespace MagicalOs.Kernel.SchedQueues

open MagicalOs.Library.ByteMemory
open MagicalOs.Library.ByteMemory.Memory
open MagicalOs.Library.LinkRing
open MagicalOs.Kernel.HeapPages
open MagicalOs.Kernel.MachineState
open MagicalOs.Kernel.TaskStructure

/-- The common body of the three `_enq` routines. -/
def queueEnq (mem : Memory) (queue : Queue) (task : Nat) : Memory × Queue :=
  if queue.head ≠ 0 then
    let mem := setPrev mem task (prev mem queue.head)
    let mem := setNext mem task queue.head
    let mem := setNext mem (prev mem queue.head) task
    let mem := setPrev mem queue.head task
    (mem, { queue with len := queue.len + 1#32 })
  else
    let mem := setPrev mem task task
    let mem := setNext mem task task
    (mem, { head := task, len := queue.len + 1#32 })

/--
The common body of the three `_del` routines.  On an empty queue they return
`-1` and do nothing.
-/
def queueDel (mem : Memory) (queue : Queue) (task : Nat) :
    Int × Memory × Queue :=
  if queue.head = 0 then
    (-1, mem, queue)
  else if next mem queue.head ≠ queue.head then
    let head := if queue.head = task then next mem queue.head else queue.head
    let mem := setNext mem (prev mem task) (next mem task)
    let mem := setPrev mem (next mem task) (prev mem task)
    (0, mem, { head := head, len := queue.len - 1#32 })
  else
    (0, mem, { head := 0, len := queue.len - 1#32 })

/-! ## The routines of `sched.c` -/

def schedRunqEnq (machine : Machine) (task : Nat) : Machine :=
  let (mem, queue) := queueEnq machine.mem machine.runQueue task
  { machine with mem := mem, runQueue := queue }

def schedRunqDel (machine : Machine) (task : Nat) : Int × Machine :=
  let (result, mem, queue) := queueDel machine.mem machine.runQueue task
  (result, { machine with mem := mem, runQueue := queue })

def schedWakeupqEnq (machine : Machine) (task : Nat) : Machine :=
  let (mem, queue) := queueEnq machine.mem machine.wakeupQueue task
  { machine with mem := mem, wakeupQueue := queue }

def schedWakeupqDel (machine : Machine) (task : Nat) : Int × Machine :=
  let (result, mem, queue) := queueDel machine.mem machine.wakeupQueue task
  (result, { machine with mem := mem, wakeupQueue := queue })

def schedWakeupevqEnq (machine : Machine) (task : Nat) : Machine :=
  let (mem, queue) := queueEnq machine.mem machine.wakeupEventQueue task
  { machine with mem := mem, wakeupEventQueue := queue }

def schedWakeupevqDel (machine : Machine) (task : Nat) : Int × Machine :=
  let (result, mem, queue) := queueDel machine.mem machine.wakeupEventQueue task
  (result, { machine with mem := mem, wakeupEventQueue := queue })

/-- The queue holds exactly the given tasks, in ring order from its head. -/
structure QueueRing (mem : Memory) (queue : Queue) (tasks : List Nat) :
    Prop where
  pages : ∀ task ∈ tasks, IsHeapPage task
  ring : Ring (next mem) (prev mem) tasks
  head : queue.head = tasks.headD 0
  len : queue.len = BitVec.ofNat 32 tasks.length

variable {mem after : Memory} {queue : Queue} {tasks others : List Nat}
  {task : Nat}

namespace QueueRing

theorem empty (mem : Memory) : QueueRing mem ⟨0, 0#32⟩ [] :=
  ⟨by simp, .empty _ _, rfl, rfl⟩

theorem head_eq_zero_iff (holds : QueueRing mem queue tasks) :
    queue.head = 0 ↔ tasks = [] := by
  rw [holds.head]
  cases tasks with
  | nil => simp
  | cons first rest =>
      have nonNull := (holds.pages first (by simp)).ne_null
      simp [nonNull]

/-- A queue is unaffected by stores outside the links of its tasks. -/
theorem congr (holds : QueueRing mem queue tasks)
    (agree : ∀ task ∈ tasks, AgreeOn after mem task 8) :
    QueueRing after queue tasks where
  pages := holds.pages
  ring := by
    refine holds.ring.congr ?_ ?_
    · intro task member
      exact ((agree task member).sub (task + 4) 4
        (by omega) (by omega)).loadPtr
    · intro task member
      exact ((agree task member).sub task 4 (by omega) (by omega)).loadPtr
  head := holds.head
  len := holds.len

/-- Rearranging the links of other tasks leaves the queue alone. -/
theorem linksOnly (holds : QueueRing mem queue tasks)
    (links : LinksOnly mem after others)
    (otherPages : ∀ task ∈ others, IsHeapPage task)
    (disjoint : List.Disjoint tasks others) :
    QueueRing after queue tasks := by
  apply holds.congr
  intro task member
  apply links.agreeOn
  intro other otherMember
  have different : task ≠ other := by
    rintro rfl
    exact disjoint member otherMember
  have apart :=
    (holds.pages task member).apart (otherPages other otherMember) different
  omega

/-- The tasks of a queue are determined by its head and the links. -/
theorem unique (holds : QueueRing mem queue tasks)
    (other : QueueRing mem queue others) : tasks = others := by
  have head := holds.head.symm.trans other.head
  cases tasks with
  | nil => exact (other.head_eq_zero_iff.mp holds.head).symm
  | cons first rest =>
      cases others with
      | nil => exact holds.head_eq_zero_iff.mp other.head
      | cons second others =>
          have same : first = second := head
          subst same
          rw [holds.ring.unique other.ring]

end QueueRing

/-- Following the links from the head of the queue leads to the task. -/
def OnQueue (mem : Memory) (queue : Queue) (task : Nat) : Prop :=
  queue.head ≠ 0 ∧ ∃ steps, (next mem)^[steps] queue.head = task

theorem QueueRing.onQueue_iff (holds : QueueRing mem queue tasks) :
    OnQueue mem queue task ↔ task ∈ tasks := by
  have head := holds.head
  cases tasks with
  | nil => simp [OnQueue, show queue.head = 0 from head]
  | cons first rest =>
      have isFirst : queue.head = first := head
      constructor
      · rintro ⟨_, steps, rfl⟩
        rw [isFirst]
        induction steps with
        | zero => simp
        | succ steps induction =>
            rw [Function.iterate_succ_apply']
            exact holds.ring.next_mem induction
      · intro member
        rcases holds.ring.reachable member with ⟨steps, _, reached⟩
        rw [OnQueue, isFirst]
        exact ⟨(holds.pages first (by simp)).ne_null, steps, reached⟩

/-! ## Enqueueing -/

/-- The four stores of an insertion between the last and the first node. -/
def linkLast (mem : Memory) (first last task : Nat) : Memory :=
  setPrev (setNext (setNext (setPrev mem task last) task first) last task)
    first task

theorem linkLast_linksOnly {first last : Nat} (firstMem : first ∈ tasks)
    (lastMem : last ∈ tasks) :
    LinksOnly mem (linkLast mem first last task) (task :: tasks) := by
  have withTask : task ∈ task :: tasks := by simp
  have withFirst : first ∈ task :: tasks := by simp [firstMem]
  have withLast : last ∈ task :: tasks := by simp [lastMem]
  exact
    (((LinksOnly.setPrev withTask).trans (.setNext withTask)).trans
      (.setNext withLast)).trans (.setPrev withFirst)

theorem ring_linkLast {first last : Nat}
    (pages : ∀ node ∈ tasks, IsHeapPage node) (taskPage : IsHeapPage task)
    (ring : Ring (next mem) (prev mem) tasks) (fresh : task ∉ tasks)
    (firstMem : first ∈ tasks.head?) (lastMem : last ∈ tasks.getLast?) :
    Ring (next (linkLast mem first last task))
      (prev (linkLast mem first last task)) (tasks ++ [task]) := by
  have firstIn : first ∈ tasks := List.mem_of_mem_head? firstMem
  have lastIn : last ∈ tasks := List.mem_of_getLast? lastMem
  have firstPage := pages first firstIn
  have lastPage := pages last lastIn
  have taskNeFirst : task ≠ first := fun equal => fresh (equal ▸ firstIn)
  have taskNeLast : task ≠ last := fun equal => fresh (equal ▸ lastIn)
  refine ring.append fresh firstMem lastMem ?_ ?_ ?_ ?_ ?_ ?_
  · rw [linkLast, next_setPrev firstPage taskPage,
      next_setNext_of_ne lastPage taskPage taskNeLast,
      next_setNext_self firstPage.small]
  · rw [linkLast, prev_setPrev_of_ne firstPage taskPage taskNeFirst,
      prev_setNext lastPage taskPage, prev_setNext taskPage taskPage,
      prev_setPrev_self lastPage.small]
  · rw [linkLast, next_setPrev firstPage lastPage,
      next_setNext_self taskPage.small]
  · rw [linkLast, prev_setPrev_self taskPage.small]
  · intro other otherIn notLast
    have otherPage := pages other otherIn
    have otherNeTask : other ≠ task := fun equal => fresh (equal ▸ otherIn)
    rw [linkLast, next_setPrev firstPage otherPage,
      next_setNext_of_ne lastPage otherPage notLast,
      next_setNext_of_ne taskPage otherPage otherNeTask,
      next_setPrev taskPage otherPage]
  · intro other otherIn notFirst
    have otherPage := pages other otherIn
    have otherNeTask : other ≠ task := fun equal => fresh (equal ▸ otherIn)
    rw [linkLast, prev_setPrev_of_ne firstPage otherPage notFirst,
      prev_setNext lastPage otherPage, prev_setNext taskPage otherPage,
      prev_setPrev_of_ne taskPage otherPage otherNeTask]

/-- Outside the links of the task, of the first and of the last one. -/
theorem linkLast_frame {first last address : Nat}
    (notTask : address < task ∨ task + 8 ≤ address)
    (notFirst : address < first ∨ first + 4 ≤ address)
    (notLast : address < last + 4 ∨ last + 8 ≤ address) :
    linkLast mem first last task address = mem address := by
  rw [linkLast, setPrev, setNext, setNext, setPrev,
    storePtr_agreeOutside _ first task address notFirst,
    storePtr_agreeOutside _ (last + 4) task address (by omega),
    storePtr_agreeOutside _ (task + 4) first address (by omega),
    storePtr_agreeOutside _ task last address (by omega)]

/-- What `queueEnq` does when the queue has a head. -/
theorem queueEnq_of_head (nonNull : queue.head ≠ 0)
    (headPage : IsHeapPage queue.head) (taskPage : IsHeapPage task)
    (different : queue.head ≠ task) :
    queueEnq mem queue task =
      (linkLast mem queue.head (prev mem queue.head) task,
        { queue with len := queue.len + 1#32 }) := by
  rw [queueEnq, if_pos nonNull]
  simp only [linkLast]
  rw [prev_setNext taskPage headPage,
    prev_setPrev_of_ne taskPage headPage different]

/-- What `queueEnq` does when the queue has none. -/
theorem queueEnq_of_null (null : queue.head = 0) :
    queueEnq mem queue task =
      (setNext (setPrev mem task task) task task,
        { head := task, len := queue.len + 1#32 }) := by
  rw [queueEnq, if_neg (not_not.mpr null)]

/-- What `queueEnq` does to a queue which is not empty. -/
theorem queueEnq_of_cons {first : Nat} {rest : List Nat}
    (holds : QueueRing mem queue (first :: rest))
    (taskPage : IsHeapPage task) (fresh : task ∉ first :: rest) :
    queueEnq mem queue task =
      (linkLast mem first ((first :: rest).getLast (by simp)) task,
        { queue with len := queue.len + 1#32 }) := by
  have headEqual : queue.head = first := holds.head
  have headPage : IsHeapPage queue.head :=
    headEqual ▸ holds.pages first (by simp)
  have different : queue.head ≠ task :=
    fun equal => fresh (by simp [← headEqual, equal])
  rw [queueEnq_of_head headPage.ne_null headPage taskPage different,
    headEqual, holds.ring.adjacent_last.2]

theorem queueEnq_of_nil (holds : QueueRing mem queue []) (task : Nat) :
    queueEnq mem queue task =
      (setNext (setPrev mem task task) task task,
        { head := task, len := queue.len + 1#32 }) :=
  queueEnq_of_null holds.head

theorem queueEnq_linksOnly (holds : QueueRing mem queue tasks)
    (taskPage : IsHeapPage task) (fresh : task ∉ tasks) :
    LinksOnly mem (queueEnq mem queue task).1 (task :: tasks) := by
  cases tasks with
  | nil =>
      rw [queueEnq_of_nil holds]
      exact (LinksOnly.setPrev (by simp)).trans (.setNext (by simp))
  | cons first rest =>
      rw [queueEnq_of_cons holds taskPage fresh]
      exact linkLast_linksOnly (by simp) (List.getLast_mem _)

/-- Enqueueing a task which is not on the queue appends it to the ring. -/
theorem queueEnq_ring (holds : QueueRing mem queue tasks)
    (taskPage : IsHeapPage task) (fresh : task ∉ tasks) :
    QueueRing (queueEnq mem queue task).1 (queueEnq mem queue task).2
      (tasks ++ [task]) := by
  have pages : ∀ node ∈ tasks ++ [task], IsHeapPage node := by
    intro node member
    rcases List.mem_append.mp member with old | new
    · exact holds.pages node old
    · exact (List.mem_singleton.mp new) ▸ taskPage
  have length :
      queue.len + 1#32 = BitVec.ofNat 32 (tasks ++ [task]).length := by
    rw [holds.len, List.length_append, BitVec.ofNat_add]
    rfl
  cases tasks with
  | nil =>
      rw [queueEnq_of_nil holds]
      refine ⟨pages, ?_, rfl, length⟩
      apply Ring.singleton (next_setNext_self taskPage.small)
      rw [prev_setNext taskPage taskPage, prev_setPrev_self taskPage.small]
  | cons first rest =>
      rw [queueEnq_of_cons holds taskPage fresh]
      refine ⟨pages, ?_, holds.head, length⟩
      exact ring_linkLast holds.pages taskPage holds.ring fresh (by simp)
        (List.getLast_mem_getLast? _)

/-! ## Removal -/

/-- The two stores which join the neighbours of a node. -/
def joinNeighbours (mem : Memory) (first last : Nat) : Memory :=
  setPrev (setNext mem last first) first last

theorem joinNeighbours_linksOnly {first last : Nat} (firstMem : first ∈ tasks)
    (lastMem : last ∈ tasks) :
    LinksOnly mem (joinNeighbours mem first last) tasks :=
  (LinksOnly.setNext lastMem).trans (.setPrev firstMem)

theorem ring_joinNeighbours {first last : Nat} {rest : List Nat}
    (pages : ∀ node ∈ rest, IsHeapPage node)
    (ring : Ring (next mem) (prev mem) (task :: rest))
    (firstMem : first ∈ rest.head?) (lastMem : last ∈ rest.getLast?) :
    Ring (next (joinNeighbours mem first last))
      (prev (joinNeighbours mem first last)) rest := by
  have firstPage := pages first (List.mem_of_mem_head? firstMem)
  have lastPage := pages last (List.mem_of_getLast? lastMem)
  refine ring.tail firstMem lastMem ?_ ?_ ?_ ?_
  · rw [joinNeighbours, next_setPrev firstPage lastPage,
      next_setNext_self firstPage.small]
  · rw [joinNeighbours, prev_setPrev_self lastPage.small]
  · intro other otherIn notLast
    have otherPage := pages other otherIn
    rw [joinNeighbours, next_setPrev firstPage otherPage,
      next_setNext_of_ne lastPage otherPage notLast]
  · intro other otherIn notFirst
    have otherPage := pages other otherIn
    rw [joinNeighbours, prev_setPrev_of_ne firstPage otherPage notFirst,
      prev_setNext lastPage otherPage]

theorem queueDel_of_alone (holds : QueueRing mem queue [task]) :
    queueDel mem queue task = (0, mem, { head := 0, len := 0#32 }) := by
  have taskPage := holds.pages task (by simp)
  have headEqual : queue.head = task := holds.head
  have selfLoop : next mem task = task := holds.ring.next_eq_self_iff.mpr rfl
  have length : queue.len - 1#32 = 0#32 := by
    simp [holds.len]
  rw [queueDel, headEqual, if_neg taskPage.ne_null, if_neg (by simp [selfLoop]),
    length]

/-- What `queueDel` does to a queue of several tasks. -/
theorem queueDel_of_split {front back : List Nat} {first last : Nat}
    (holds : QueueRing mem queue (front ++ task :: back))
    (firstMem : first ∈ (back ++ front).head?)
    (lastMem : last ∈ (back ++ front).getLast?) :
    queueDel mem queue task =
      (0, joinNeighbours mem first last,
        { head := (front ++ back).headD 0, len := queue.len - 1#32 }) := by
  have rotated : Ring (next mem) (prev mem) (task :: (back ++ front)) := by
    simpa using holds.ring.rotate
  have taskFresh : task ∉ back ++ front :=
    (List.nodup_cons.mp rotated.nodup).1
  have taskPage := holds.pages task (by simp)
  have lastIn : last ∈ back ++ front := List.mem_of_getLast? lastMem
  have lastPage : IsHeapPage last := by
    apply holds.pages last
    simp only [List.mem_append, List.mem_cons] at lastIn ⊢
    tauto
  have nextEqual : next mem task = first := by
    rw [holds.ring.next_eq, List.headD_eq_head?_getD, firstMem]
    rfl
  have prevEqual : prev mem task = last := by
    have lastOfRing : last ∈ (task :: (back ++ front)).getLast? := by
      rw [List.getLast?_cons, lastMem]
      rfl
    exact (rotated.closed last lastOfRing task (by simp)).2
  have taskNeLast : task ≠ last := fun equal => taskFresh (equal ▸ lastIn)
  have nonEmpty : queue.head ≠ 0 := fun isNull => by
    have := holds.head_eq_zero_iff.mp isNull
    simp at this
  have severalTasks : next mem queue.head ≠ queue.head := by
    cases front with
    | nil =>
        have headEqual : queue.head = task := holds.head
        rw [headEqual, nextEqual]
        rintro rfl
        exact taskFresh (List.mem_of_mem_head? firstMem)
    | cons front0 frontRest =>
        have headEqual : queue.head = front0 := holds.head
        have ring : Ring (next mem) (prev mem)
            (front0 :: (frontRest ++ task :: back)) := holds.ring
        rw [headEqual, Ne, ring.next_eq_self_iff]
        simp
  have newHead :
      (if queue.head = task then next mem queue.head else queue.head) =
        (front ++ back).headD 0 := by
    cases front with
    | nil =>
        have headEqual : queue.head = task := holds.head
        rw [if_pos headEqual, headEqual, nextEqual]
        have inBack : first ∈ back.head? := by simpa using firstMem
        rw [List.nil_append, List.headD_eq_head?_getD, inBack]
        rfl
    | cons front0 frontRest =>
        have headEqual : queue.head = front0 := holds.head
        have different : queue.head ≠ task := by
          rw [headEqual]
          rintro rfl
          exact taskFresh (by simp)
        rw [if_neg different, headEqual]
        rfl
  rw [queueDel, if_neg nonEmpty, if_pos severalTasks]
  simp only [newHead, nextEqual, prevEqual]
  rw [next_setNext_of_ne lastPage taskPage taskNeLast, nextEqual,
    prev_setNext lastPage taskPage, prevEqual]
  rfl

private theorem exists_ends {front back : List Nat}
    (several : front ++ back ≠ []) :
    ∃ first ∈ (back ++ front).head?, ∃ last ∈ (back ++ front).getLast?,
      first ∈ back ++ front ∧ last ∈ back ++ front := by
  have nonEmpty : back ++ front ≠ [] := by
    simp only [ne_eq, List.append_eq_nil_iff] at several ⊢
    tauto
  exact
    ⟨_, List.head_mem_head? nonEmpty, _, List.getLast_mem_getLast? nonEmpty,
      List.head_mem nonEmpty, List.getLast_mem nonEmpty⟩

theorem queueDel_linksOnly {front back : List Nat}
    (holds : QueueRing mem queue (front ++ task :: back)) :
    LinksOnly mem (queueDel mem queue task).2.1 (front ++ task :: back) := by
  by_cases alone : front ++ back = []
  · rcases List.append_eq_nil_iff.mp alone with ⟨rfl, rfl⟩
    rw [queueDel_of_alone holds]
    exact .refl mem _
  · rcases exists_ends alone with
      ⟨first, firstMem, last, lastMem, firstIn, lastIn⟩
    rw [queueDel_of_split holds firstMem lastMem]
    have inRing : back ++ front ⊆ front ++ task :: back := by
      intro other member
      simp only [List.mem_append, List.mem_cons] at member ⊢
      tauto
    exact joinNeighbours_linksOnly (inRing firstIn) (inRing lastIn)

/-- Deleting a task of the ring erases it from the ring. -/
theorem queueDel_ring {front back : List Nat}
    (holds : QueueRing mem queue (front ++ task :: back)) :
    QueueRing (queueDel mem queue task).2.1 (queueDel mem queue task).2.2
      (front ++ back) := by
  by_cases alone : front ++ back = []
  · rcases List.append_eq_nil_iff.mp alone with ⟨rfl, rfl⟩
    rw [queueDel_of_alone holds]
    exact .empty mem
  · rcases exists_ends alone with
      ⟨first, firstMem, last, lastMem, _, _⟩
    rw [queueDel_of_split holds firstMem lastMem]
    have inRing : ∀ other ∈ back ++ front, IsHeapPage other := by
      intro other member
      apply holds.pages other
      simp only [List.mem_append, List.mem_cons] at member ⊢
      tauto
    refine ⟨?_, ?_, rfl, ?_⟩
    · intro other member
      apply inRing other
      simp only [List.mem_append] at member ⊢
      tauto
    · have rotated : Ring (next mem) (prev mem) (task :: (back ++ front)) := by
        simpa using holds.ring.rotate
      exact (ring_joinNeighbours inRing rotated firstMem lastMem).rotate
    · have length :
          (front ++ task :: back).length = (front ++ back).length + 1 := by
        simp only [List.length_append, List.length_cons]
        omega
      rw [holds.len, length, BitVec.ofNat_add, BitVec.add_sub_cancel]

/-- `_del` reports success for a task of the ring. -/
theorem queueDel_result {front back : List Nat}
    (holds : QueueRing mem queue (front ++ task :: back)) :
    (queueDel mem queue task).1 = 0 := by
  by_cases alone : front ++ back = []
  · rcases List.append_eq_nil_iff.mp alone with ⟨rfl, rfl⟩
    rw [queueDel_of_alone holds]
  · rcases exists_ends alone with ⟨first, firstMem, last, lastMem, _, _⟩
    rw [queueDel_of_split holds firstMem lastMem]

/-! ## Moving a task from one queue to another -/

/-- Every change of queues is a `_del` followed by an `_enq`. -/
def queueMove (mem : Memory) (source target : Queue) (task : Nat) :
    Memory × Queue × Queue :=
  let (_, mem, source) := queueDel mem source task
  let (mem, target) := queueEnq mem target task
  (mem, source, target)

section Moving

variable {source target : Queue} {front back : List Nat}
  (sourceHolds : QueueRing mem source (front ++ task :: back))
  (targetHolds : QueueRing mem target tasks)
  (disjoint : List.Disjoint (front ++ task :: back) tasks)
include sourceHolds targetHolds disjoint

private theorem queueMove_deleted :
    task ∉ tasks ∧
      QueueRing (queueDel mem source task).2.1
        (queueDel mem source task).2.2 (front ++ back) ∧
      QueueRing (queueDel mem source task).2.1 target tasks := by
  refine ⟨?_, queueDel_ring sourceHolds, ?_⟩
  · exact fun member => disjoint (by simp) member
  · exact targetHolds.linksOnly (queueDel_linksOnly sourceHolds)
      sourceHolds.pages disjoint.symm

theorem queueMove_linksOnly :
    LinksOnly mem (queueMove mem source target task).1
      ((front ++ task :: back) ++ tasks) := by
  rcases queueMove_deleted sourceHolds targetHolds disjoint with
    ⟨fresh, _, targetRing⟩
  have taskPage := sourceHolds.pages task (by simp)
  have deleted := queueDel_linksOnly sourceHolds
  have inserted := queueEnq_linksOnly targetRing taskPage fresh
  refine (deleted.mono (List.subset_append_left _ _)).trans
    (inserted.mono ?_)
  intro other member
  rcases List.mem_cons.mp member with rfl | old
  · simp
  · exact List.mem_append_right _ old

theorem queueMove_source :
    QueueRing (queueMove mem source target task).1
      (queueMove mem source target task).2.1 (front ++ back) := by
  rcases queueMove_deleted sourceHolds targetHolds disjoint with
    ⟨fresh, sourceRing, targetRing⟩
  have taskPage := sourceHolds.pages task (by simp)
  have inserted := queueEnq_linksOnly targetRing taskPage fresh
  have nodup := sourceHolds.ring.nodup
  have taskFresh : task ∉ front ++ back :=
    (List.nodup_cons.mp (List.nodup_middle.mp nodup)).1
  refine sourceRing.linksOnly inserted ?_ ?_
  · intro other member
    rcases List.mem_cons.mp member with rfl | old
    · exact taskPage
    · exact targetHolds.pages other old
  · intro other inSource inTarget
    rcases List.mem_cons.mp inTarget with rfl | old
    · exact taskFresh inSource
    · refine disjoint ?_ old
      simp only [List.mem_append, List.mem_cons] at inSource ⊢
      tauto

theorem queueMove_target :
    QueueRing (queueMove mem source target task).1
      (queueMove mem source target task).2.2 (tasks ++ [task]) := by
  rcases queueMove_deleted sourceHolds targetHolds disjoint with
    ⟨fresh, _, targetRing⟩
  exact queueEnq_ring targetRing (sourceHolds.pages task (by simp)) fresh

end Moving

end MagicalOs.Kernel.SchedQueues
