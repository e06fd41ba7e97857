import MagicalOs.Kernel.CommonRoutines
import MagicalOs.Kernel.HeapLists

/-!
# Block drivers

`block_driver.c` keeps the registered tables of operations in a circular list
with the static head `blk_drivers_head`.  A registration links a new node in
front.  The loop of `remove_blk_driver` never changes a link: it stays at the
first node which belongs to another table, and it passes over the nodes of the
table it removes, which `kfree` does not take back either.

`RemovalEnds` is the termination of this loop.  `Faithful` compares the list
with the tables which should be registered, after every call of a sequence.
-/

namespace MagicalOs.Devices.BlockDrivers

open MagicalOs.Library.ByteMemory
open MagicalOs.Library.HeldBytes
open MagicalOs.Library.SentinelList
open MagicalOs.Kernel.CommonRoutines
open MagicalOs.Kernel.HeapLists
open MagicalOs.Kernel.KernelHeap

/-- `sizeof(struct blk_device_drivers)`. -/
def sizeofDrivers : Word := 8#32

/--
The heap, and the fields of the nodes.  The head is `blk_drivers_head`, and
`op` points to a table.
-/
structure Drivers where
  heap : Heap
  op : Pointer → Nat
  next : Pointer → Pointer

/-- The list before the first registration. -/
def bootDrivers (heap : Heap) : Drivers where
  heap := heap
  op := fun _ => 0
  next := fun _ => .head

/-- `register_blk_driver`; there is no result when it aborts. -/
def registerBlkDriver (drivers : Drivers) (op : Nat) : Option Drivers :=
  (kmalloc drivers.heap sizeofDrivers).bind fun (p, heap) =>
    if p = 0 then
      none
    else
      some
        { heap := heap
          op := Function.update drivers.op (.node p) op
          next := pushFront drivers.next .head (.node p) }

/-- `kfree`, which does nothing. -/
def kfree (drivers : Drivers) (_p : Pointer) : Drivers := drivers

/-- The loop of `remove_blk_driver`. -/
def removeFrom (op : Nat) :
    (iterations : Nat) → Drivers → (p : Pointer) → Option Drivers
  | 0, _, _ => none
  | iterations + 1, drivers, p =>
      if p = .head then
        some drivers
      else if drivers.op p ≠ op then
        let q := p
        removeFrom op iterations drivers q
      else
        let q := drivers.next p
        removeFrom op iterations (kfree drivers p) q

/-- `remove_blk_driver`; without a result the iterations do not suffice. -/
def removeBlkDriver (iterations : Nat) (drivers : Drivers) (op : Nat) :
    Option Drivers :=
  removeFrom op iterations drivers (drivers.next .head)

/-- The test `!strcmp(p->op->name, name)`; the name begins the table. -/
def isNamed (mem : Memory) (drivers : Drivers) (name iterations : Nat)
    (p : Pointer) : Option Bool :=
  (strcmp mem iterations (drivers.op p) name).map (· = 0)

/-- `get_blk_driver`; without a result the iterations do not suffice. -/
def getBlkDriver (mem : Memory) (drivers : Drivers) (name iterations : Nat) :
    Option (Option Pointer) :=
  searchPartial drivers.next .head
    (isNamed mem drivers name iterations) iterations
    (drivers.next .head)

/-! ## Sequences of calls -/

inductive Call where
  | registerBlkDriver (op : Nat)
  | removeBlkDriver (op : Nat)
  deriving DecidableEq

/-- How a sequence of calls ends. -/
inductive Outcome where
  | returned (drivers : Drivers)
  | aborted
  | unfinished

def perform (iterations : Nat) (drivers : Drivers) : Call → Outcome
  | .registerBlkDriver op =>
      match registerBlkDriver drivers op with
      | some drivers => .returned drivers
      | none => .aborted
  | .removeBlkDriver op =>
      match removeBlkDriver iterations drivers op with
      | some drivers => .returned drivers
      | none => .unfinished

def run (iterations : Nat) (drivers : Drivers) : List Call → Outcome
  | [] => .returned drivers
  | call :: rest =>
      match perform iterations drivers call with
      | .returned drivers => run iterations drivers rest
      | .aborted => .aborted
      | .unfinished => .unfinished

/-! ## What is expected of the calls -/

/-- The registered tables after a call, the most recent one first. -/
def afterCall (ops : List Nat) : Call → List Nat
  | .registerBlkDriver op => op :: ops
  | .removeBlkDriver op => ops.filter (· ≠ op)

/-- The registered tables after a sequence of calls. -/
def registered (ops : List Nat) (calls : List Call) : List Nat :=
  calls.foldl afterCall ops

/--
The nodes, in list order, belong to the registered tables, and a query which
is held in memory finds the first node of a table with this name.
-/
structure Represents (mem : Memory) (nameOf : Nat → List Byte)
    (drivers : Drivers) (ops : List Nat) (nodes : List Pointer) : Prop where
  listed : Listed drivers.next .head nodes
  tables : nodes.map drivers.op = ops
  found : ∀ (name : Nat) (query : List Byte), HoldsString mem name query →
    (∀ op ∈ ops, HoldsString mem op (nameOf op)) →
      ∃ bound, ∀ iterations, bound ≤ iterations →
        getBlkDriver mem drivers name iterations =
          some (nodes.find? fun p => nameOf (drivers.op p) = query)

/--
Whichever of the calls have been made, they have come to an end, and unless
the kernel was aborted, the list is as expected.
-/
def Faithful (mem : Memory) (nameOf : Nat → List Byte) (drivers : Drivers)
    (ops : List Nat) (calls : List Call) : Prop :=
  ∀ front, front <+: calls → ∃ bound, ∀ iterations, bound ≤ iterations →
    run iterations drivers front = .aborted ∨
      ∃ after, run iterations drivers front = .returned after ∧
        ∃ nodes, Represents mem nameOf after (registered ops front) nodes

/--
No table is removed after one was registered; what follows a registration for
which there is no room is never called.
-/
def Harmless : (nodes room : Nat) → List Call → Prop
  | _, _, [] => True
  | nodes, room, .removeBlkDriver _ :: rest =>
      nodes = 0 ∧ Harmless nodes room rest
  | _, 0, .registerBlkDriver _ :: _ => True
  | nodes, room + 1, .registerBlkDriver _ :: rest =>
      Harmless (nodes + 1) room rest

/-! ## Registration -/

section Register

variable {drivers after : Drivers} {nodes : List Pointer} {op : Nat}

/-- A registration aborts exactly when there is no room for the node. -/
theorem registerBlkDriver_eq_none_iff
    (kept : Kept drivers.heap drivers.next nodes) :
    registerBlkDriver drivers op = none ↔
      room drivers.heap sizeofDrivers = 0 := by
  rw [room_eq_zero_iff kept.valid (by decide) (by decide), registerBlkDriver]
  cases ran : kmalloc drivers.heap sizeofDrivers with
  | none => simp
  | some result =>
      rcases result with ⟨p, heap⟩
      have nonNull := (kept.kmalloc (by decide) (by decide) ran).1
      simp [nonNull]

/-- A registration puts a node of the table in front. -/
theorem registerBlkDriver_kept
    (kept : Kept drivers.heap drivers.next nodes)
    (ran : registerBlkDriver drivers op = some after) :
    ∃ p, Kept after.heap after.next (p :: nodes) ∧
      (p :: nodes).map after.op = op :: nodes.map drivers.op ∧
      room drivers.heap sizeofDrivers = room after.heap sizeofDrivers + 1 := by
  rcases Option.bind_eq_some_iff.mp ran with ⟨⟨p, heap⟩, allocated, linked⟩
  rcases kept.kmalloc (by decide) (by decide) allocated with
    ⟨nonNull, fresh, keptAfter, less⟩
  dsimp only at linked
  rw [if_neg nonNull] at linked
  cases linked
  have notOld : Pointer.node p ∉ nodes :=
    fun member => fresh (List.mem_cons_of_mem _ member)
  exact ⟨.node p, keptAfter, map_update_cons _ _ notOld, less⟩

end Register

/-! ## Removal -/

section Remove

variable {drivers after : Drivers} {nodes : List Pointer}
  {start p : Pointer} {op iterations : Nat}

/-- A removal which comes to an end has changed nothing. -/
theorem removeFrom_eq (ran : removeFrom op iterations drivers p = some after) :
    after = drivers := by
  induction iterations generalizing p with
  | zero => cases ran
  | succ iterations induction =>
      rw [removeFrom] at ran
      split at ran
      · cases ran
        rfl
      · split at ran
        · exact induction ran
        · exact induction ran

/-- The loop never leaves a node of another table. -/
theorem removeFrom_of_other (inList : p ≠ .head)
    (other : drivers.op p ≠ op) :
    removeFrom op iterations drivers p = none := by
  induction iterations with
  | zero => rfl
  | succ iterations induction =>
      rw [removeFrom, if_neg inList, if_pos other]
      exact induction

/-- A removal which comes to an end has met nodes of its table only. -/
theorem op_of_removeFrom
    (path : Path drivers.next start nodes .head)
    (notMem : Pointer.head ∉ nodes)
    (ran : removeFrom op iterations drivers (drivers.next start) =
      some after) :
    ∀ p ∈ nodes, drivers.op p = op := by
  induction nodes generalizing start iterations with
  | nil => simp
  | cons node rest induction =>
      rcases path with ⟨forward, tail⟩
      simp only [List.mem_cons, not_or] at notMem
      rw [forward] at ran
      have inList : node ≠ .head := Ne.symm notMem.1
      have own : drivers.op node = op := by
        by_contra other
        rw [removeFrom_of_other inList other] at ran
        cases ran
      have later : ∀ p ∈ rest, drivers.op p = op := by
        cases iterations with
        | zero => cases ran
        | succ iterations =>
            rw [removeFrom, if_neg inList, if_neg (not_not.mpr own)] at ran
            exact induction tail notMem.2 ran
      intro p member
      rcases List.mem_cons.mp member with rfl | old
      · exact own
      · exact later p old

theorem removeBlkDriver_of_empty
    (empty : drivers.next .head = .head)
    (enough : 1 ≤ iterations) :
    removeBlkDriver iterations drivers op = some drivers := by
  cases iterations with
  | zero => cases enough
  | succ iterations => rw [removeBlkDriver, empty, removeFrom, if_pos rfl]

end Remove

/-! ## When a removal comes to an end -/

/-- With enough iterations, the removal comes to an end. -/
def RemovalEnds (drivers : Drivers) (op : Nat) : Prop :=
  ∃ bound, ∀ iterations, bound ≤ iterations →
    ∃ after, removeBlkDriver iterations drivers op = some after

section RemovalEnds

variable {drivers : Drivers} {nodes : List Pointer} {start : Pointer}
  {op iterations : Nat}

/-- The loop passes over the nodes of the table it removes. -/
theorem removeFrom_of_own
    (path : Path drivers.next start nodes .head)
    (notMem : Pointer.head ∉ nodes)
    (own : ∀ p ∈ nodes, drivers.op p = op)
    (enough : nodes.length < iterations) :
    removeFrom op iterations drivers (drivers.next start) = some drivers := by
  induction nodes generalizing start iterations with
  | nil =>
      cases iterations with
      | zero => cases enough
      | succ iterations =>
          have ended : drivers.next start = .head := path
          rw [ended, removeFrom, if_pos rfl]
  | cons node rest induction =>
      rcases path with ⟨forward, tail⟩
      simp only [List.mem_cons, not_or] at notMem
      rw [List.forall_mem_cons] at own
      cases iterations with
      | zero => cases enough
      | succ iterations =>
          rw [forward, removeFrom, if_neg (Ne.symm notMem.1),
            if_neg (not_not.mpr own.1)]
          exact induction tail notMem.2 own.2 (Nat.lt_of_succ_lt_succ enough)

/-- A removal ends exactly when no other table is registered. -/
theorem removalEnds_iff (listed : Listed drivers.next .head nodes)
    (op : Nat) :
    RemovalEnds drivers op ↔ ∀ p ∈ nodes, drivers.op p = op := by
  have notMem := (List.nodup_cons.mp listed.nodup).1
  constructor
  · rintro ⟨bound, ends⟩
    rcases ends bound (Nat.le_refl bound) with ⟨after, ran⟩
    exact op_of_removeFrom listed.path notMem ran
  · intro own
    refine ⟨nodes.length + 1, fun iterations enough => ⟨drivers, ?_⟩⟩
    exact removeFrom_of_own listed.path notMem own enough

/-- The list with the single node at `p`. -/
def singleDriver (p op : Nat) : Drivers where
  heap := emptyHeap
  op := fun _ => op
  next := pushFront (fun _ => .head) .head (.node p)

theorem singleDriver_listed (p op : Nat) :
    Listed (singleDriver p op).next .head [.node p] :=
  Listed.pushFront (.empty rfl) (by simp)

/-- The removal of the only table ends. -/
theorem singleDriver_removalEnds :
    RemovalEnds (singleDriver 0x100000 0x9000) 0x9000 :=
  (removalEnds_iff (singleDriver_listed 0x100000 0x9000) 0x9000).mpr
    fun _ _ => rfl

/-- The removal of another table does not. -/
theorem singleDriver_not_removalEnds :
    Listed (singleDriver 0x100000 0x9000).next .head [.node 0x100000] ∧
      ¬RemovalEnds (singleDriver 0x100000 0x9000) 0x9100 := by
  have listed := singleDriver_listed 0x100000 0x9000
  constructor
  · exact listed
  · rintro ⟨bound, ends⟩
    rcases ends bound (Nat.le_refl bound) with ⟨after, ran⟩
    have notMem := (List.nodup_cons.mp listed.nodup).1
    have own := op_of_removeFrom listed.path notMem ran (.node 0x100000)
      (by simp)
    cases own

end RemovalEnds

/-! ## The list after a sequence of calls -/

section Sequences

variable {mem : Memory} {nameOf : Nat → List Byte}
  {drivers after : Drivers} {nodes : List Pointer} {ops : List Nat}
  {call : Call} {rest : List Call} {op : Nat}

/-- The list finds what it holds. -/
theorem represents_of_listed
    (listed : Listed drivers.next .head nodes) :
    Represents mem nameOf drivers (nodes.map drivers.op) nodes := by
  refine ⟨listed, rfl, ?_⟩
  intro name query held names
  refine ⟨query.length + nodes.length + 1, fun iterations enough => ?_⟩
  apply listed.searchPartial
  · intro p member
    rcases strcmp_spec
      (names (drivers.op p) (List.mem_map_of_mem member)) held
      (show query.length < iterations by omega) with ⟨order, result, zero⟩
    rw [isNamed, result, Option.map_some]
    exact congrArg some (decide_eq_decide.mpr zero)
  · omega

/-- A call which returns leaves the calls behind it. -/
theorem faithful_cons (now : ∃ nodes, Represents mem nameOf drivers ops nodes)
    (step : ∀ iterations, 1 ≤ iterations →
      perform iterations drivers call = .returned after) :
    Faithful mem nameOf drivers ops (call :: rest) ↔
      Faithful mem nameOf after (afterCall ops call) rest := by
  have unfolded (front : List Call) (iterations : Nat)
      (positive : 1 ≤ iterations) :
      run iterations drivers (call :: front) = run iterations after front := by
    rw [run, step iterations positive]
  constructor
  · intro faithful front isPrefix
    rcases faithful (call :: front) (List.cons_prefix_cons.mpr ⟨rfl, isPrefix⟩)
      with ⟨bound, result⟩
    refine ⟨bound + 1, fun iterations enough => ?_⟩
    rw [← unfolded front iterations (by omega)]
    exact result iterations (by omega)
  · intro faithful front isPrefix
    cases front with
    | nil => exact ⟨0, fun iterations _ => .inr ⟨drivers, rfl, now⟩⟩
    | cons first front =>
        rcases List.cons_prefix_cons.mp isPrefix with ⟨rfl, tailPrefix⟩
        rcases faithful front tailPrefix with ⟨bound, result⟩
        refine ⟨bound + 1, fun iterations enough => ?_⟩
        rw [unfolded front iterations (by omega)]
        exact result iterations (by omega)

/-- When the kernel is aborted, there is nothing more to expect. -/
theorem faithful_of_aborted
    (now : ∃ nodes, Represents mem nameOf drivers ops nodes)
    (step : ∀ iterations, perform iterations drivers call = .aborted) :
    Faithful mem nameOf drivers ops (call :: rest) := by
  intro front isPrefix
  cases front with
  | nil => exact ⟨0, fun iterations _ => .inr ⟨drivers, rfl, now⟩⟩
  | cons first front =>
      rcases List.cons_prefix_cons.mp isPrefix with ⟨rfl, _⟩
      refine ⟨0, fun iterations _ => .inl ?_⟩
      rw [run, step iterations]

/-- A removal from a list which is not empty never does what is expected. -/
theorem not_faithful_remove (kept : Kept drivers.heap drivers.next nodes)
    (nonempty : nodes ≠ []) :
    ¬Faithful mem nameOf drivers (nodes.map drivers.op)
      (.removeBlkDriver op :: rest) := by
  intro faithful
  rcases faithful [.removeBlkDriver op] (by simp) with ⟨bound, result⟩
  have notMem := (List.nodup_cons.mp kept.listed.nodup).1
  have last := result bound (Nat.le_refl bound)
  rw [run, perform] at last
  cases removed : removeBlkDriver bound drivers op with
  | none =>
      rw [removed] at last
      simp at last
  | some after =>
      have same := removeFrom_eq removed
      have own := op_of_removeFrom kept.listed.path notMem removed
      rw [removed, same] at last
      simp only [run, reduceCtorEq, false_or] at last
      rcases last with ⟨_, equal, others, represents⟩
      cases equal
      have sameNodes := kept.listed.unique represents.listed
      rcases List.exists_mem_of_ne_nil nodes nonempty with ⟨p, member⟩
      have inOps : drivers.op p ∈
          registered (nodes.map drivers.op) [.removeBlkDriver op] := by
        rw [← represents.tables, ← sameNodes]
        exact List.mem_map_of_mem member
      simp [registered, afterCall, own p member] at inOps

/-- From any list on, the calls are faithful when they are harmless. -/
theorem faithful_iff_of_kept (kept : Kept drivers.heap drivers.next nodes)
    (calls : List Call) :
    Faithful mem nameOf drivers (nodes.map drivers.op) calls ↔
      Harmless nodes.length (room drivers.heap sizeofDrivers) calls := by
  induction calls generalizing drivers nodes with
  | nil =>
      constructor
      · intro _
        trivial
      · intro _ front isPrefix
        rw [List.prefix_nil.mp isPrefix]
        exact ⟨0, fun iterations _ => .inr
          ⟨drivers, rfl, nodes, represents_of_listed kept.listed⟩⟩
  | cons call rest induction =>
      have now : ∃ nodes', Represents mem nameOf drivers
          (nodes.map drivers.op) nodes' :=
        ⟨nodes, represents_of_listed kept.listed⟩
      cases call with
      | removeBlkDriver op =>
          rw [Harmless]
          cases nodes with
          | nil =>
              have empty : drivers.next .head = .head :=
                kept.listed.path
              have step : ∀ iterations, 1 ≤ iterations →
                  perform iterations drivers (.removeBlkDriver op) =
                    .returned drivers := by
                intro iterations enough
                rw [perform, removeBlkDriver_of_empty empty enough]
              rw [faithful_cons now step]
              have same := induction kept
              simpa [afterCall] using same
          | cons p others =>
              constructor
              · intro faithful
                exact absurd faithful (not_faithful_remove kept (by simp))
              · rintro ⟨empty, _⟩
                cases empty
      | registerBlkDriver op =>
          cases ran : registerBlkDriver drivers op with
          | none =>
              have full := (registerBlkDriver_eq_none_iff kept).mp ran
              rw [full, Harmless]
              constructor
              · intro _
                trivial
              · intro _
                apply faithful_of_aborted now
                intro iterations
                rw [perform, ran]
          | some after =>
              rcases registerBlkDriver_kept kept ran with
                ⟨p, keptAfter, ops, larger⟩
              have step : ∀ iterations, 1 ≤ iterations →
                  perform iterations drivers (.registerBlkDriver op) =
                    .returned after := by
                intro iterations _
                rw [perform, ran]
              rw [faithful_cons now step, larger, Harmless, afterCall, ← ops]
              exact induction keptAfter

end Sequences

/-- From boot on, the calls are faithful when nothing registered is removed. -/
theorem faithful_iff_harmless (mem : Memory) (nameOf : Nat → List Byte)
    {heap : Heap} (valid : Valid heap) (calls : List Call) :
    Faithful mem nameOf (bootDrivers heap) [] calls ↔
      Harmless 0 (room heap sizeofDrivers) calls :=
  faithful_iff_of_kept (Kept.empty valid rfl) calls

/-- A table which stays registered. -/
theorem registered_faithful :
    Faithful (fun _ => 0#8) (fun _ => []) (bootDrivers emptyHeap) []
        [.registerBlkDriver 0x9000] ↔
      Harmless 0 (room emptyHeap sizeofDrivers) [.registerBlkDriver 0x9000] :=
  faithful_iff_harmless _ _ (valid_static _) _

/-- A table which is removed is still found. -/
theorem removed_not_faithful :
    ¬∀ (mem : Memory) (nameOf : Nat → List Byte) (heap : Heap)
      (calls : List Call), Valid heap →
        Faithful mem nameOf (bootDrivers heap) [] calls := by
  intro all
  have kept : Kept (bootDrivers emptyHeap).heap (bootDrivers emptyHeap).next
      [] :=
    .empty (valid_static _) rfl
  have faithful := all (fun _ => 0#8) (fun _ => []) emptyHeap
    [.registerBlkDriver 0x9000, .removeBlkDriver 0x9000] (valid_static _)
  have harmless := (faithful_iff_of_kept kept _).mp faithful
  change Harmless 0 (room emptyHeap sizeofDrivers) _ at harmless
  rw [room_emptyHeap] at harmless
  exact absurd harmless.1 (by decide)

end MagicalOs.Devices.BlockDrivers
