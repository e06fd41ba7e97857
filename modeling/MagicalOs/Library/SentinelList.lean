import Mathlib.Data.List.Nodup
import Mathlib.Logic.Function.Basic

/-!
# Singly linked lists with a sentinel

The nodes of such a list, taken in order, lead from a sentinel back to it.
Nodes are only inserted in front, so the forward links suffice.  A search
follows the links until its test succeeds or the sentinel is reached; its
number of iterations is bounded, and a bound above the length of the list is
never reached.
-/

namespace MagicalOs.Library.SentinelList

variable {α : Type*} {next next' : α → α} {sentinel start stop node : α}
  {nodes : List α}

/-- The forward links lead from `start` over the nodes to `stop`. -/
def Path (next : α → α) (start : α) : (nodes : List α) → (stop : α) → Prop
  | [], stop => next start = stop
  | node :: rest, stop => next start = node ∧ Path next node rest stop

/-- The nodes, in order, lead from the sentinel back to it. -/
structure Listed (next : α → α) (sentinel : α) (nodes : List α) : Prop where
  nodup : (sentinel :: nodes).Nodup
  path : Path next sentinel nodes sentinel

/-- A path only depends on the links of its nodes. -/
theorem Path.congr (path : Path next start nodes stop)
    (same : ∀ node ∈ start :: nodes, next' node = next node) :
    Path next' start nodes stop := by
  induction nodes generalizing start with
  | nil => exact (same start (by simp)).trans path
  | cons node rest induction =>
      rcases path with ⟨forward, tail⟩
      constructor
      · exact (same start (by simp)).trans forward
      · exact induction tail fun other member =>
          same other (List.mem_cons_of_mem start member)

/-- The first link of a path may be set to the start of another one. -/
theorem Path.restart (path : Path next start nodes stop)
    (first : next' node = next start)
    (same : ∀ other ∈ nodes, next' other = next other) :
    Path next' node nodes stop := by
  cases nodes with
  | nil => exact first.trans path
  | cons head rest => exact ⟨first.trans path.1, path.2.congr same⟩

/-- The links determine the nodes of a path to a sentinel. -/
theorem Path.unique {others : List α} (path : Path next start nodes sentinel)
    (other : Path next start others sentinel) (notMem : sentinel ∉ nodes)
    (notOther : sentinel ∉ others) : nodes = others := by
  induction nodes generalizing start others with
  | nil =>
      cases others with
      | nil => rfl
      | cons head tail =>
          have ended : next start = sentinel := path
          have first : sentinel = head := ended.symm.trans other.1
          exact absurd (first ▸ List.mem_cons_self) notOther
  | cons node rest induction =>
      cases others with
      | nil =>
          have ended : next start = sentinel := other
          have first : sentinel = node := ended.symm.trans path.1
          exact absurd (first ▸ List.mem_cons_self) notMem
      | cons head tail =>
          have first : node = head := path.1.symm.trans other.1
          subst first
          rw [induction path.2 other.2
            (fun member => notMem (List.mem_cons_of_mem node member))
            (fun member => notOther (List.mem_cons_of_mem node member))]

namespace Listed

theorem unique {others : List α} (listed : Listed next sentinel nodes)
    (other : Listed next sentinel others) : nodes = others :=
  listed.path.unique other.path (List.nodup_cons.mp listed.nodup).1
    (List.nodup_cons.mp other.nodup).1

theorem empty (self : next sentinel = sentinel) : Listed next sentinel [] :=
  ⟨List.nodup_singleton sentinel, self⟩

end Listed

section Operations

variable [DecidableEq α] {test : α → Bool} {iterations : Nat}

/-- Link a node in between the sentinel and the first node. -/
def pushFront (next : α → α) (sentinel node : α) : α → α :=
  Function.update (Function.update next node (next sentinel)) sentinel node

/--
Follow the links until the test succeeds or the sentinel is reached.  There is
no result when the iterations do not suffice.
-/
def search (next : α → α) (sentinel : α) (test : α → Bool) :
    (iterations : Nat) → α → Option (Option α)
  | 0, _ => none
  | iterations + 1, node =>
      if node = sentinel then
        some none
      else if test node then
        some (some node)
      else
        search next sentinel test iterations (next node)

/-- A search whose test may itself have no result. -/
def searchPartial (next : α → α) (sentinel : α) (test : α → Option Bool) :
    (iterations : Nat) → α → Option (Option α)
  | 0, _ => none
  | iterations + 1, node =>
      if node = sentinel then
        some none
      else
        (test node).bind fun passed =>
          if passed then
            some (some node)
          else
            searchPartial next sentinel test iterations (next node)

/-- Follow the links until the sentinel is reached, and collect the nodes. -/
def traverse (next : α → α) (sentinel : α) :
    (iterations : Nat) → α → Option (List α)
  | 0, _ => none
  | iterations + 1, node =>
      if node = sentinel then
        some []
      else
        (traverse next sentinel iterations (next node)).map (node :: ·)

/-- A traversal of a path collects its nodes. -/
theorem traverse_of_path (path : Path next start nodes sentinel)
    (notMem : sentinel ∉ nodes) (enough : nodes.length < iterations) :
    traverse next sentinel iterations (next start) = some nodes := by
  induction nodes generalizing start iterations with
  | nil =>
      rcases Nat.exists_eq_succ_of_ne_zero (Nat.ne_of_gt enough) with
        ⟨remaining, rfl⟩
      have ended : next start = sentinel := path
      rw [traverse, if_pos ended]
  | cons node rest induction =>
      rcases Nat.exists_eq_succ_of_ne_zero
        (Nat.ne_of_gt (Nat.zero_lt_of_lt enough)) with ⟨remaining, rfl⟩
      rw [List.mem_cons, not_or] at notMem
      rcases notMem with ⟨notNode, notRest⟩
      have later := induction path.2 notRest (Nat.lt_of_succ_lt_succ enough)
      rw [path.1, traverse, if_neg (Ne.symm notNode), later]
      rfl

/-- Traversing the whole list. -/
theorem Listed.traverse (listed : Listed next sentinel nodes)
    (enough : nodes.length < iterations) :
    traverse next sentinel iterations (next sentinel) = some nodes :=
  traverse_of_path listed.path (List.nodup_cons.mp listed.nodup).1 enough

/-- Inserting a fresh node puts it in front of the list. -/
theorem Listed.pushFront (listed : Listed next sentinel nodes)
    (fresh : node ∉ sentinel :: nodes) :
    Listed (pushFront next sentinel node) sentinel (node :: nodes) := by
  rcases List.nodup_cons.mp listed.nodup with ⟨notMem, nodup⟩
  simp only [List.mem_cons, not_or] at fresh
  rcases fresh with ⟨notSentinel, notOld⟩
  refine ⟨?_, ?_, ?_⟩
  · refine List.nodup_cons.mpr ⟨?_, List.nodup_cons.mpr ⟨notOld, nodup⟩⟩
    simp [Ne.symm notSentinel, notMem]
  · simp [SentinelList.pushFront]
  · refine listed.path.restart ?_ ?_
    · simp [SentinelList.pushFront, notSentinel]
    · intro other member
      have different : other ≠ sentinel := by
        rintro rfl
        exact notMem member
      have old : other ≠ node := by
        rintro rfl
        exact notOld member
      simp [SentinelList.pushFront, different, old]

/-- A search along a path finds the first node which passes the test. -/
theorem search_of_path (path : Path next start nodes sentinel)
    (notMem : sentinel ∉ nodes) (enough : nodes.length < iterations) :
    search next sentinel test iterations (next start) =
      some (nodes.find? test) := by
  induction nodes generalizing start iterations with
  | nil =>
      cases iterations with
      | zero => cases enough
      | succ iterations =>
          have ended : next start = sentinel := path
          rw [search, if_pos ended, List.find?_nil]
  | cons node rest induction =>
      simp only [List.mem_cons, not_or] at notMem
      cases iterations with
      | zero => cases enough
      | succ iterations =>
          rcases path with ⟨forward, tail⟩
          rw [forward, search, if_neg (Ne.symm notMem.1), List.find?_cons]
          cases test node with
          | true => simp
          | false =>
              simpa using induction tail notMem.2
                (Nat.lt_of_succ_lt_succ enough)

/-- Searching the whole list. -/
theorem Listed.search (listed : Listed next sentinel nodes)
    (enough : nodes.length < iterations) :
    search next sentinel test iterations (next sentinel) =
      some (nodes.find? test) :=
  search_of_path listed.path (List.nodup_cons.mp listed.nodup).1 enough

/-- Where all tests have a result, the search is the total one. -/
theorem searchPartial_eq_search {partialTest : α → Option Bool}
    (total : ∀ node, node ∈ nodes → partialTest node = some (test node))
    (path : Path next start nodes sentinel) :
    searchPartial next sentinel partialTest iterations (next start) =
      SentinelList.search next sentinel test iterations (next start) := by
  induction nodes generalizing start iterations with
  | nil =>
      have ended : next start = sentinel := path
      cases iterations with
      | zero => rfl
      | succ iterations =>
          rw [searchPartial, SentinelList.search, if_pos ended, if_pos ended]
  | cons node rest induction =>
      rcases path with ⟨forward, tail⟩
      cases iterations with
      | zero => rfl
      | succ iterations =>
          have later :
              SentinelList.searchPartial next sentinel partialTest iterations
                  (next node) =
                SentinelList.search next sentinel test iterations
                  (next node) :=
            induction
              (fun other member => total other (List.mem_cons_of_mem _ member))
              tail
          rw [forward, searchPartial, SentinelList.search,
            total node (by simp), Option.bind_some, later]

/-- Searching the whole list with tests which have a result. -/
theorem Listed.searchPartial (listed : Listed next sentinel nodes)
    {partialTest : α → Option Bool}
    (total : ∀ node, node ∈ nodes → partialTest node = some (test node))
    (enough : nodes.length < iterations) :
    searchPartial next sentinel partialTest iterations (next sentinel) =
      some (nodes.find? test) := by
  rw [searchPartial_eq_search total listed.path]
  exact listed.search enough

end Operations

end MagicalOs.Library.SentinelList
