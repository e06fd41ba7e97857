import Mathlib.Data.List.Infix
import Mathlib.Data.List.Induction

/-!
# Lines edited by appending and deleting

A key either deletes the last item of the line or appends itself.  The length
of the line is a counter over the keys, and the item at an index is the key
that was typed when the counter stood there and that the counter has not gone
back to since.  A line is over when it is full or when a key ends it.
-/

namespace MagicalOs.Library.EditedLine

variable {α : Type*} [DecidableEq α]

/-- What a key does to the line. -/
def edit (erase : α) (line : List α) (key : α) : List α :=
  if key = erase then line.dropLast else line ++ [key]

/-- The line after a list of keys. -/
def edited (erase : α) (line keys : List α) : List α :=
  keys.foldl (edit erase) line

/-- What a key does to the length of the line. -/
def count (erase : α) (length : Nat) (key : α) : Nat :=
  if key = erase then length - 1 else length + 1

/-- The length of the line after a list of keys. -/
def depth (erase : α) (length : Nat) (keys : List α) : Nat :=
  keys.foldl (count erase) length

/-- The keys `after` the item never delete it. -/
def Stands (erase : α) (before : List α) (item : α) (after : List α) : Prop :=
  ∀ middle, middle <+: after →
    depth erase 0 before < depth erase 0 (before ++ item :: middle)

/-! ## The length of the line -/

section Length

variable {erase key item : α} {line keys before after : List α} {length : Nat}

theorem edit_erase : edit erase line erase = line.dropLast :=
  if_pos rfl

theorem edit_other (other : key ≠ erase) :
    edit erase line key = line ++ [key] :=
  if_neg other

theorem length_edit :
    (edit erase line key).length = count erase line.length key := by
  by_cases erases : key = erase
  · rw [edit, count, if_pos erases, if_pos erases, List.length_dropLast]
  · rw [edit, count, if_neg erases, if_neg erases, List.length_append,
      List.length_singleton]

@[simp]
theorem edited_nil : edited erase line [] = line :=
  rfl

theorem edited_cons :
    edited erase line (key :: keys) =
      edited erase (edit erase line key) keys :=
  rfl

theorem edited_snoc :
    edited erase line (keys ++ [key]) =
      edit erase (edited erase line keys) key := by
  simp [edited]

@[simp]
theorem depth_nil : depth erase length [] = length :=
  rfl

theorem depth_append :
    depth erase length (before ++ after) =
      depth erase (depth erase length before) after := by
  simp [depth]

theorem depth_snoc :
    depth erase length (keys ++ [key]) =
      count erase (depth erase length keys) key := by
  rw [depth_append]
  rfl

theorem length_edited :
    (edited erase line keys).length = depth erase line.length keys := by
  induction keys generalizing line with
  | nil => rfl
  | cons key keys hypothesis =>
      rw [edited_cons, hypothesis, length_edit]
      rfl

end Length

/-! ## The items of the line -/

section Items

variable {erase key item : α} {keys before after : List α} {index : Nat}

/-- A deletion does not stand in the line. -/
theorem Stands.ne_erase (stands : Stands erase before item after) :
    item ≠ erase := by
  rintro rfl
  have deeper := stands [] List.nil_prefix
  rw [depth_snoc, count, if_pos rfl] at deeper
  omega

theorem stands_nil (other : item ≠ erase) : Stands erase before item [] := by
  intro middle inside
  rw [List.prefix_nil] at inside
  rw [inside, depth_snoc, count, if_neg other]
  exact Nat.lt_succ_self _

theorem stands_snoc :
    Stands erase before item (after ++ [key]) ↔
      Stands erase before item after ∧
        depth erase 0 before <
          depth erase 0 ((before ++ item :: after) ++ [key]) := by
  constructor
  · intro stands
    constructor
    · intro middle inside
      exact stands middle (inside.trans (List.prefix_append _ _))
    · have deeper := stands (after ++ [key]) (List.prefix_refl _)
      rwa [← List.cons_append, ← List.append_assoc] at deeper
  · rintro ⟨stands, deeper⟩ middle inside
    rcases List.prefix_concat_iff.mp inside with rfl | inside
    · rwa [← List.cons_append, ← List.append_assoc]
    · exact stands middle inside

omit [DecidableEq α] in
/-- The place of an item in a list with one more key. -/
theorem snoc_eq_append_cons :
    keys ++ [key] = before ++ item :: after ↔
      (after = [] ∧ before = keys ∧ item = key) ∨
        ∃ rest, after = rest ++ [key] ∧ keys = before ++ item :: rest := by
  constructor
  · intro equal
    rcases List.eq_nil_or_concat' after with rfl | ⟨rest, last, rfl⟩
    · have parts := List.append_inj' equal rfl
      have head : key = item := by simpa using parts.2
      exact .inl ⟨rfl, parts.1.symm, head.symm⟩
    · rw [← List.cons_append, ← List.append_assoc] at equal
      have parts := List.append_inj' equal rfl
      have head : key = last := by simpa using parts.2
      exact .inr ⟨rest, by rw [head], parts.1⟩
  · rintro (⟨rfl, rfl, rfl⟩ | ⟨rest, rfl, rfl⟩)
    · rfl
    · simp

/-- The item was typed at the index and stands there. -/
def Placed (erase : α) (keys : List α) (index : Nat) (item : α) : Prop :=
  ∃ before after, keys = before ++ item :: after ∧
    depth erase 0 before = index ∧ Stands erase before item after

theorem placed_snoc :
    Placed erase (keys ++ [key]) index item ↔
      (Placed erase keys index item ∧
          index < depth erase 0 (keys ++ [key])) ∨
        (depth erase 0 keys = index ∧ item = key ∧ key ≠ erase) := by
  constructor
  · rintro ⟨before, after, equal, rfl, stands⟩
    rcases snoc_eq_append_cons.mp equal with
      ⟨rfl, rfl, rfl⟩ | ⟨rest, rfl, rfl⟩
    · exact .inr ⟨rfl, rfl, stands.ne_erase⟩
    · rcases stands_snoc.mp stands with ⟨stands, deeper⟩
      exact .inl ⟨⟨before, rest, rfl, rfl, stands⟩, deeper⟩
  · rintro (⟨⟨before, rest, rfl, rfl, stands⟩, deeper⟩ | ⟨rfl, rfl, other⟩)
    · exact ⟨before, rest ++ [key], by simp, rfl,
        stands_snoc.mpr ⟨stands, deeper⟩⟩
    · exact ⟨keys, [], rfl, rfl, stands_nil other⟩

theorem getElem?_edit {items : List α} :
    (edit erase items key)[index]? = some item ↔
      (items[index]? = some item ∧ index < count erase items.length key) ∨
        (items.length = index ∧ item = key ∧ key ≠ erase) := by
  by_cases erases : key = erase
  · rw [edit, count, if_pos erases, if_pos erases, List.getElem?_dropLast]
    by_cases inside : index < items.length - 1
    · simp [inside, erases]
    · simp [inside, erases]
  · rw [edit, count, if_neg erases, if_neg erases, List.getElem?_append]
    by_cases inside : index < items.length
    · have different : items.length ≠ index := by omega
      simp [inside, different, Nat.lt_succ_of_lt inside]
    · have same : index - items.length = 0 ↔ items.length = index := by omega
      simp [inside, List.getElem?_singleton, same, erases, eq_comm]

/-- The item at an index is the last one typed there that still stands. -/
theorem getElem?_edited :
    (edited erase [] keys)[index]? = some item ↔
      Placed erase keys index item := by
  induction keys using List.reverseRecOn generalizing index item with
  | nil => simp [Placed]
  | append_singleton keys key hypothesis =>
      have length : (edited erase [] keys).length = depth erase 0 keys :=
        length_edited
      rw [edited_snoc, getElem?_edit, placed_snoc, hypothesis, length,
        depth_snoc]

theorem mem_edited :
    item ∈ edited erase [] keys ↔
      ∃ before after, keys = before ++ item :: after ∧
        Stands erase before item after := by
  rw [List.mem_iff_getElem?]
  constructor
  · rintro ⟨index, found⟩
    rcases getElem?_edited.mp found with ⟨before, after, equal, -, stands⟩
    exact ⟨before, after, equal, stands⟩
  · rintro ⟨before, after, equal, stands⟩
    exact ⟨_, getElem?_edited.mpr ⟨before, after, equal, rfl, stands⟩⟩

end Items

/-! ## The end of the line -/

section End

variable (erase enter : α) (full : Nat → Prop)

/-- No key comes after the end of the line. -/
def Open (length : Nat) (keys : List α) : Prop :=
  ∀ before key after, keys = before ++ key :: after →
    ¬full (depth erase length before) ∧ key ≠ enter

/-- The line is over after the keys `typed`. -/
structure Ends (length : Nat) (typed rest : List α) : Prop where
  isOpen : Open erase enter full length typed
  isOver : full (depth erase length typed) ∨ rest.head? = some enter

/-- The line that the keys end, if they do. -/
def editLine [DecidablePred full] : List α → List α → Option (List α)
  | [], line => if full line.length then some line else none
  | key :: keys, line =>
      if full line.length then some line
      else if key = enter then some line
      else editLine keys (edit erase line key)

variable {erase enter full} {key : α} {keys line typed rest result : List α}
  {length : Nat}

theorem open_nil : Open erase enter full length [] := by
  intro before key after equal
  simp at equal

theorem open_cons :
    Open erase enter full length (key :: keys) ↔
      (¬full length ∧ key ≠ enter) ∧
        Open erase enter full (count erase length key) keys := by
  constructor
  · intro isOpen
    constructor
    · exact isOpen [] key keys rfl
    · intro before other after equal
      exact isOpen (key :: before) other after (by rw [equal]; rfl)
  · rintro ⟨first, later⟩ before other after equal
    cases before with
    | nil =>
        cases equal
        exact first
    | cons head tail =>
        cases equal
        exact later tail other after rfl

theorem Open.of_append {back : List α}
    (isOpen : Open erase enter full length (keys ++ back)) :
    Open erase enter full length keys := by
  intro before key after equal
  apply isOpen before key (after ++ back)
  rw [equal, List.append_assoc, List.cons_append]

theorem Open.snoc (isOpen : Open erase enter full length (keys ++ [key])) :
    ¬full (depth erase length keys) ∧ key ≠ enter :=
  isOpen keys key [] rfl

theorem ends_cons :
    Ends erase enter full length (key :: typed) rest ↔
      (¬full length ∧ key ≠ enter) ∧
        Ends erase enter full (count erase length key) typed rest := by
  constructor
  · rintro ⟨isOpen, isOver⟩
    rw [open_cons] at isOpen
    exact ⟨isOpen.1, isOpen.2, isOver⟩
  · rintro ⟨first, isOpen, isOver⟩
    exact ⟨open_cons.mpr ⟨first, isOpen⟩, isOver⟩

variable [DecidablePred full]

theorem editLine_full (isFull : full line.length) :
    editLine erase enter full keys line = some line := by
  cases keys with
  | nil => exact if_pos isFull
  | cons key keys => exact if_pos isFull

/-- The line is what the keys in front of its end make of it. -/
theorem editLine_eq_some :
    editLine erase enter full keys line = some result ↔
      ∃ typed rest, keys = typed ++ rest ∧
        Ends erase enter full line.length typed rest ∧
          result = edited erase line typed := by
  constructor
  · intro ended
    induction keys generalizing line with
    | nil =>
        rw [editLine] at ended
        split at ended
        · rename_i isFull
          cases ended
          exact ⟨[], [], rfl, ⟨open_nil, .inl isFull⟩, rfl⟩
        · cases ended
    | cons key keys hypothesis =>
        rw [editLine] at ended
        split at ended
        · rename_i isFull
          cases ended
          exact ⟨[], key :: keys, rfl, ⟨open_nil, .inl isFull⟩, rfl⟩
        · rename_i notFull
          split at ended
          · rename_i isEnter
            cases ended
            refine ⟨[], key :: keys, rfl, ⟨open_nil, .inr ?_⟩, rfl⟩
            rw [List.head?_cons, isEnter]
          · rename_i notEnter
            rcases hypothesis ended with ⟨typed, rest, rfl, ends, equal⟩
            rw [length_edit] at ends
            exact ⟨key :: typed, rest, rfl,
              ends_cons.mpr ⟨⟨notFull, notEnter⟩, ends⟩, equal⟩
  · rintro ⟨typed, rest, rfl, ends, rfl⟩
    induction typed generalizing line with
    | nil =>
        rcases ends.isOver with isFull | isEnter
        · exact editLine_full isFull
        · cases rest with
          | nil => cases isEnter
          | cons key rest =>
              rw [List.head?_cons, Option.some.injEq] at isEnter
              rw [List.nil_append, editLine, if_pos isEnter, ite_self]
              rfl
    | cons key typed hypothesis =>
        rcases ends_cons.mp ends with ⟨⟨notFull, notEnter⟩, ends⟩
        rw [← length_edit] at ends
        rw [List.cons_append, editLine, if_neg notFull, if_neg notEnter,
          hypothesis ends]
        rfl

end End

/-! ## Lines one after the other -/

section Lines

variable (erase enter : α) (full : Nat → Prop) [DecidablePred full]

/-- The line that the keys end, and the keys that are left for the next. -/
def cutLine : List α → List α → Option (List α × List α)
  | [], line => if full line.length then some (line, []) else none
  | key :: keys, line =>
      if full line.length then some (line, key :: keys)
      else if key = enter then some (line, keys)
      else cutLine keys (edit erase line key)

/-- The lines that the keys end, as far as a number of readers takes them. -/
def editLines : Nat → List α → List (List α)
  | 0, _ => []
  | readers + 1, keys =>
      match cutLine erase enter full keys [] with
      | some (line, rest) => line :: editLines readers rest
      | none => []

variable {erase enter full} {keys more line : List α} {readers : Nat}

theorem cutLine_full (isFull : full line.length) :
    cutLine erase enter full keys line = some (line, keys) := by
  cases keys with
  | nil => exact if_pos isFull
  | cons key keys => exact if_pos isFull

end Lines

end MagicalOs.Library.EditedLine
