import Mathlib.Data.List.Chain
import Mathlib.Data.List.Nodup

/-!
# Circular doubly linked lists

A collection of nodes with two link functions is a ring when its nodes, taken
in order, are linked forwards and backwards and its last node is linked to its
first one.  A ring has no sentinel, so the empty ring has no link at all.

The module relates the pointer manipulations of an intrusive ring to list
operations: insertion before the first node appends to the list, unlinking a
node erases it from the list, and walking the forward link visits the list in
order.
-/

namespace MagicalOs.Library.LinkRing

variable {α : Type*} {next prev next' prev' : α → α} {nodes : List α}
  {node first last : α}

/-- `right` follows `left` in both directions. -/
def Adjacent (next prev : α → α) (left right : α) : Prop :=
  next left = right ∧ prev right = left

/-- The nodes, in order, are linked into a circle. -/
structure Ring (next prev : α → α) (nodes : List α) : Prop where
  nodup : nodes.Nodup
  linked : nodes.IsChain (Adjacent next prev)
  closed : ∀ last ∈ nodes.getLast?, ∀ first ∈ nodes.head?,
    Adjacent next prev last first

namespace Ring

theorem empty (next prev : α → α) : Ring next prev [] :=
  ⟨List.nodup_nil, .nil, by simp⟩

/-- A node linked to itself in both directions is a ring of its own. -/
theorem singleton (selfNext : next node = node) (selfPrev : prev node = node) :
    Ring next prev [node] :=
  ⟨List.nodup_singleton node, .singleton node, by
    simp [Adjacent, selfNext, selfPrev]⟩

/-- A ring only depends on the links of its own nodes. -/
theorem congr (ring : Ring next prev nodes)
    (sameNext : ∀ node ∈ nodes, next' node = next node)
    (samePrev : ∀ node ∈ nodes, prev' node = prev node) :
    Ring next' prev' nodes where
  nodup := ring.nodup
  linked := by
    apply ring.linked.imp_of_mem_imp
    rintro left right leftMem rightMem ⟨forward, backward⟩
    exact ⟨(sameNext left leftMem).trans forward,
      (samePrev right rightMem).trans backward⟩
  closed := by
    intro last lastMem first firstMem
    rcases ring.closed last lastMem first firstMem with ⟨forward, backward⟩
    exact
      ⟨(sameNext last (List.mem_of_getLast? lastMem)).trans forward,
        (samePrev first (List.mem_of_mem_head? firstMem)).trans backward⟩

/-! ## Rotation and successors -/

theorem rotate {front back : List α}
    (ring : Ring next prev (front ++ back)) :
    Ring next prev (back ++ front) := by
  rcases List.eq_nil_or_concat back with rfl | ⟨backInit, backLast, rfl⟩
  · simpa using ring
  cases front with
  | nil => simpa using ring
  | cons frontHead frontTail =>
      have links := List.isChain_append.mp ring.linked
      refine ⟨?_, ?_, ?_⟩
      · exact (List.perm_append_comm.nodup_iff).mp ring.nodup
      · refine List.isChain_append.mpr ⟨links.2.1, links.1, ?_⟩
        intro last lastMem first firstMem
        have lastOfBoth :
            last ∈ (frontHead :: frontTail ++
              backInit.concat backLast).getLast? := by
          rw [List.getLast?_append]
          simpa using lastMem
        exact ring.closed last lastOfBoth first (by simpa using firstMem)
      · intro last lastMem first firstMem
        refine links.2.2 last ?_ first ?_
        · simpa [List.getLast?_append] using lastMem
        · simpa [List.head?_append] using firstMem

/-- Backwards, a ring is one, too. -/
theorem reverse (ring : Ring next prev nodes) :
    Ring prev next nodes.reverse where
  nodup := List.nodup_reverse.mpr ring.nodup
  linked := by
    rw [List.isChain_reverse]
    apply ring.linked.imp
    intro left right adjacent
    exact ⟨adjacent.2, adjacent.1⟩
  closed := by
    intro last lastMem first firstMem
    rw [List.getLast?_reverse] at lastMem
    rw [List.head?_reverse] at firstMem
    rcases ring.closed first firstMem last lastMem with ⟨forward, backward⟩
    exact ⟨backward, forward⟩

/-- The first node of a ring follows the last one. -/
theorem adjacent_last {rest : List α}
    (ring : Ring next prev (first :: rest)) :
    Adjacent next prev ((first :: rest).getLast (by simp)) first :=
  ring.closed _ (List.getLast_mem_getLast? (by simp)) first (by simp)

/-- The node following `node`: the next list element, or the first one. -/
theorem next_eq {front back : List α}
    (ring : Ring next prev (front ++ node :: back)) :
    next node = (back ++ front).headD node := by
  have rotated : Ring next prev (node :: (back ++ front)) := by
    simpa using ring.rotate
  cases tail : back ++ front with
  | nil =>
      rw [tail] at rotated
      exact (rotated.closed node (by simp) node (by simp)).1
  | cons successor rest =>
      rw [tail] at rotated
      exact (List.isChain_cons_cons.mp rotated.linked).1.1

theorem exists_adjacent (ring : Ring next prev nodes) (member : node ∈ nodes) :
    ∃ successor ∈ nodes, Adjacent next prev node successor := by
  rcases List.append_of_mem member with ⟨front, back, rfl⟩
  have rotated : Ring next prev (node :: (back ++ front)) := by
    simpa using ring.rotate
  cases tail : back ++ front with
  | nil =>
      rw [tail] at rotated
      exact ⟨node, member, rotated.closed node (by simp) node (by simp)⟩
  | cons successor rest =>
      rw [tail] at rotated
      refine ⟨successor, ?_, (List.isChain_cons_cons.mp rotated.linked).1⟩
      have inTail : successor ∈ back ++ front := by simp [tail]
      simp only [List.mem_append, List.mem_cons] at inTail ⊢
      tauto

theorem exists_adjacent_prev (ring : Ring next prev nodes)
    (member : node ∈ nodes) :
    ∃ predecessor ∈ nodes, Adjacent next prev predecessor node := by
  rcases List.append_of_mem member with ⟨front, back, rfl⟩
  have rotated : Ring next prev (node :: (back ++ front)) := by
    simpa using ring.rotate
  refine ⟨_, ?_, rotated.adjacent_last⟩
  have inRotated :
      (node :: (back ++ front)).getLast (by simp) ∈
        node :: (back ++ front) :=
    List.getLast_mem _
  simp only [List.mem_append, List.mem_cons] at inRotated ⊢
  tauto

theorem next_mem (ring : Ring next prev nodes) (member : node ∈ nodes) :
    next node ∈ nodes := by
  rcases ring.exists_adjacent member with ⟨successor, successorMem, forward, _⟩
  exact forward ▸ successorMem

theorem prev_mem (ring : Ring next prev nodes) (member : node ∈ nodes) :
    prev node ∈ nodes := by
  rcases ring.exists_adjacent_prev member with
    ⟨predecessor, predecessorMem, _, backward⟩
  exact backward ▸ predecessorMem

theorem prev_next (ring : Ring next prev nodes) (member : node ∈ nodes) :
    prev (next node) = node := by
  rcases ring.exists_adjacent member with ⟨successor, _, forward, backward⟩
  rw [forward, backward]

theorem next_prev (ring : Ring next prev nodes) (member : node ∈ nodes) :
    next (prev node) = node := by
  rcases ring.exists_adjacent_prev member with
    ⟨predecessor, _, forward, backward⟩
  rw [backward, forward]

/-- A node is its own successor exactly when it is alone. -/
theorem next_eq_self_iff {rest : List α}
    (ring : Ring next prev (node :: rest)) :
    next node = node ↔ rest = [] := by
  have split : Ring next prev ([] ++ node :: rest) := ring
  have successor := split.next_eq
  constructor
  · intro selfLoop
    cases rest with
    | nil => rfl
    | cons head tail =>
        have equal : node = head := by simpa [selfLoop] using successor
        have distinct := ring.nodup
        simp [equal] at distinct
  · rintro rfl
    simpa using successor

/-- Every node is reached from the first one by following forward links. -/
theorem reachable {rest : List α} (ring : Ring next prev (first :: rest))
    (member : node ∈ first :: rest) :
    ∃ steps, steps < (first :: rest).length ∧ next^[steps] first = node := by
  rcases List.getElem_of_mem member with ⟨index, inList, rfl⟩
  have forward :
      (first :: rest).IsChain fun left right => next left = right :=
    ring.linked.imp fun _ _ adjacent => adjacent.1
  exact ⟨index, inList, by
    simpa using forward.iterate_eq_of_apply_eq index inList⟩

/-- The nodes are the iterates of the forward link, -/
theorem getElem_eq_iterate {rest : List α}
    (ring : Ring next prev (first :: rest)) {index : Nat}
    (inList : index < (first :: rest).length) :
    (first :: rest)[index] = next^[index] first := by
  have forward :
      (first :: rest).IsChain fun left right => next left = right :=
    ring.linked.imp fun _ _ adjacent => adjacent.1
  simpa using (forward.iterate_eq_of_apply_eq index inList).symm

/-- which returns to the first node after the last one. -/
theorem iterate_length {rest : List α}
    (ring : Ring next prev (first :: rest)) :
    next^[(first :: rest).length] first = first := by
  have last := ring.getElem_eq_iterate (Nat.lt_succ_self rest.length)
  have closed := ring.adjacent_last
  rw [List.getLast_eq_getElem] at closed
  rw [List.length_cons, Function.iterate_succ_apply', ← last]
  exact closed.1

/-- A ring which starts at a given node is determined by the links. -/
theorem unique {rest others : List α} (ring : Ring next prev (first :: rest))
    (other : Ring next prev (first :: others)) : rest = others := by
  have notShorter {left right : List α}
      (shorter : Ring next prev (first :: left))
      (longer : Ring next prev (first :: right)) :
      right.length ≤ left.length := by
    by_contra less
    have inList : (first :: left).length < (first :: right).length := by
      simp only [List.length_cons]
      omega
    have again : (first :: right)[(first :: left).length] =
        (first :: right)[0] := by
      rw [longer.getElem_eq_iterate inList, shorter.iterate_length]
      rfl
    have same := (longer.nodup.getElem_inj_iff).mp again
    cases same
  have length : (first :: rest).length = (first :: others).length := by
    have below := notShorter ring other
    have above := notShorter other ring
    simp only [List.length_cons]
    omega
  have equal : first :: rest = first :: others := by
    apply List.ext_getElem length
    intro index inRing inOther
    rw [ring.getElem_eq_iterate, other.getElem_eq_iterate]
  exact List.tail_eq_of_cons_eq equal

/-! ## Insertion and removal -/

/--
Links which are unchanged except for the forward link of the last node and the
backward link of the first one still chain the nodes together.
-/
theorem linked_of_interior
    (nodup : nodes.Nodup)
    (linked : nodes.IsChain (Adjacent next prev))
    (sameNext : ∀ node ∈ nodes, node ∉ nodes.getLast? →
      next' node = next node)
    (samePrev : ∀ node ∈ nodes, node ∉ nodes.head? →
      prev' node = prev node) :
    nodes.IsChain (Adjacent next' prev') := by
  rw [List.isChain_iff_forall_rel_of_append_cons_cons] at linked ⊢
  intro left right front back split
  rcases linked split with ⟨forward, backward⟩
  subst split
  have leftNotLast : left ∉ (front ++ left :: right :: back).getLast? := by
    intro isLast
    have inTail : left ∈ right :: back := by
      apply List.mem_of_getLast?
      simpa [List.getLast?_append, List.getLast?_cons_cons] using isLast
    have tailNodup := (List.nodup_append.mp nodup).2.1
    exact (List.nodup_cons.mp tailNodup).1 inTail
  have rightNotFirst : right ∉ (front ++ left :: right :: back).head? := by
    intro isFirst
    have inFront : right ∈ front ++ [left] := by
      cases front with
      | nil => simpa [eq_comm] using isFirst
      | cons head tail =>
          have equal : head = right := by simpa using isFirst
          simp [equal]
    have regrouped : ((front ++ [left]) ++ right :: back).Nodup := by
      simpa using nodup
    exact (List.nodup_append.mp regrouped).2.2 right inFront right
      (by simp) rfl
  exact
    ⟨(sameNext left (by simp) leftNotLast).trans forward,
      (samePrev right (by simp) rightNotFirst).trans backward⟩

/-- Linking a fresh node between the last and the first node appends it. -/
theorem append
    (ring : Ring next prev nodes) (fresh : node ∉ nodes)
    (firstMem : first ∈ nodes.head?) (lastMem : last ∈ nodes.getLast?)
    (nodeNext : next' node = first) (nodePrev : prev' node = last)
    (lastNext : next' last = node) (firstPrev : prev' first = node)
    (sameNext : ∀ other ∈ nodes, other ≠ last → next' other = next other)
    (samePrev : ∀ other ∈ nodes, other ≠ first → prev' other = prev other) :
    Ring next' prev' (nodes ++ [node]) := by
  refine ⟨?_, ?_, ?_⟩
  · exact List.nodup_append.mpr
      ⟨ring.nodup, List.nodup_singleton node, by
        rintro left leftMem right rightMem rfl
        exact fresh (by simpa using (List.mem_singleton.mp rightMem) ▸ leftMem)⟩
  · refine List.isChain_append.mpr ⟨?_, .singleton node, ?_⟩
    · refine linked_of_interior ring.nodup ring.linked ?_ ?_
      · intro other otherMem notLast
        exact sameNext other otherMem fun equal => notLast (equal ▸ lastMem)
      · intro other otherMem notFirst
        exact samePrev other otherMem fun equal => notFirst (equal ▸ firstMem)
    · intro left leftMem right rightMem
      have leftEqual : left = last := Option.mem_unique leftMem lastMem
      have rightEqual : node = right := by simpa using rightMem
      subst leftEqual rightEqual
      exact ⟨lastNext, nodePrev⟩
  · intro left leftMem right rightMem
    have leftEqual : node = left := by simpa using leftMem
    have rightEqual : right = first := by
      rw [List.head?_append_of_ne_nil _
        (List.ne_nil_of_mem (List.mem_of_mem_head? firstMem))] at rightMem
      exact Option.mem_unique rightMem firstMem
    subst leftEqual rightEqual
    exact ⟨nodeNext, firstPrev⟩

/-- Joining both neighbours of the first node unlinks it. -/
theorem tail {rest : List α}
    (ring : Ring next prev (node :: rest))
    (firstMem : first ∈ rest.head?) (lastMem : last ∈ rest.getLast?)
    (lastNext : next' last = first) (firstPrev : prev' first = last)
    (sameNext : ∀ other ∈ rest, other ≠ last → next' other = next other)
    (samePrev : ∀ other ∈ rest, other ≠ first → prev' other = prev other) :
    Ring next' prev' rest := by
  have restNodup := (List.nodup_cons.mp ring.nodup).2
  refine ⟨restNodup, ?_, ?_⟩
  · refine linked_of_interior restNodup ring.linked.tail ?_ ?_
    · intro other otherMem notLast
      exact sameNext other otherMem fun equal => notLast (equal ▸ lastMem)
    · intro other otherMem notFirst
      exact samePrev other otherMem fun equal => notFirst (equal ▸ firstMem)
  · intro left leftMem right rightMem
    have leftEqual : left = last := Option.mem_unique leftMem lastMem
    have rightEqual : right = first := Option.mem_unique rightMem firstMem
    subst leftEqual rightEqual
    exact ⟨lastNext, firstPrev⟩

end Ring

end MagicalOs.Library.LinkRing
