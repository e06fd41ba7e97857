import MagicalOs.Console.ScreenBounds

/-!
# Text at a given position

`put_str_pos` repeats what `put_char` does, with the position in two bytes of
its own.  The two differ in one place: a newline of `put_str_pos` stays in its
column.

So the stores of the two are listed by one function, which is told where a
newline goes on.  The lists part at the first newline that is not in the first
column, unless a carriage return comes before the next character.
-/

namespace MagicalOs.Console.PositionedText

open MagicalOs.Library.ByteMemory
open MagicalOs.Console.Screen
open MagicalOs.Console.ScreenBounds

/-! ## The stores of a string -/

/-- The stores to the video memory, oldest first. -/
def stores (console : ConsoleState) : List (Nat × Half) :=
  console.accesses.filterMap fun access =>
    match access with
    | .store address value => some (address, value)
    | .out _ _ => none

/-- The column behind a cell. -/
def nextColumn (x : Byte) : Byte :=
  if x.toNat < columns - 1 then x + 1#8 else 0#8

def nextRow (x y : Byte) : Byte :=
  if x.toNat < columns - 1 then y else y + 1#8

/-- The stores for a string, by the column in which a newline goes on. -/
def strStores (newlineColumn : Byte → Byte) :
    List Byte → Byte → Byte → List (Nat × Half)
  | [], _, _ => []
  | c :: str, x, y =>
      if c = carriageReturn then
        strStores newlineColumn str 0#8 y
      else if c = newline then
        strStores newlineColumn str (newlineColumn x) (y + 1#8)
      else
        (cellAddress x y, cellValue c) ::
          strStores newlineColumn str (nextColumn x) (nextRow x y)

/-- The console with its cursor at a position. -/
def cursorAt (x y : Byte) (console : ConsoleState) : ConsoleState :=
  { console with cursorPos := { x := x.setWidth 32, y := y.setWidth 32 } }

/--
`put_str_pos` makes the stores that `put_str` makes from the same position, and
leaves the cursor where it is.
-/
def SameCells (str : List Byte) (x y : Byte) (console : ConsoleState) : Prop :=
  stores (putStrPos str x y console) =
      stores (putStr str (cursorAt x y console)) ∧
    (putStrPos str x y console).cursorPos = console.cursorPos

/-! ## Newlines in the first column -/

/-- The column of `put_str` behind a character. -/
def columnStep (x c : Byte) : Byte :=
  if c = carriageReturn ∨ c = newline then 0#8 else nextColumn x

def columnAfter (x : Byte) (str : List Byte) : Byte :=
  str.foldl columnStep x

/-- Behind any newlines there is a carriage return, or nothing. -/
def Resets (str : List Byte) : Prop :=
  ∀ c, (str.dropWhile (· = newline)).head? = some c → c = carriageReturn

/-- A newline in another column than the first is followed by a return. -/
def NewlinesReset (x : Byte) (str : List Byte) : Prop :=
  ∀ front back, str = front ++ newline :: back →
    columnAfter x front ≠ 0#8 → Resets back

section Newlines

variable {x c : Byte} {str : List Byte}

theorem resets_nil : Resets [] := by
  intro c leading
  cases leading

theorem resets_return : Resets (carriageReturn :: str) := by
  intro c leading
  rw [List.dropWhile_cons_of_neg (by decide), List.head?_cons,
    Option.some.injEq] at leading
  exact leading.symm

theorem resets_newline : Resets (newline :: str) ↔ Resets str := by
  rw [Resets, List.dropWhile_cons_of_pos (by decide)]
  rfl

theorem not_resets (notReturn : c ≠ carriageReturn)
    (notNewline : c ≠ newline) : ¬Resets (c :: str) := by
  intro resets
  apply notReturn
  apply resets
  rw [List.dropWhile_cons_of_neg (by simpa using notNewline), List.head?_cons]

theorem newlinesReset_nil : NewlinesReset x [] := by
  intro front back parts
  cases front with
  | nil => cases parts
  | cons c front => cases parts

theorem newlinesReset_cons :
    NewlinesReset x (c :: str) ↔
      (c = newline → x ≠ 0#8 → Resets str) ∧
        NewlinesReset (columnStep x c) str := by
  constructor
  · intro resets
    constructor
    · rintro rfl inside
      exact resets [] str rfl inside
    · rintro front back rfl inside
      exact resets (c :: front) back rfl inside
  · rintro ⟨first, later⟩ front back parts inside
    cases front with
    | nil =>
        rcases List.cons.inj parts with ⟨same, rfl⟩
        exact first same inside
    | cons d front =>
        rcases List.cons.inj parts with ⟨rfl, rest⟩
        exact later front back rest inside

/-- A character that is not a newline only moves the column. -/
theorem newlinesReset_other (notNewline : c ≠ newline) :
    NewlinesReset x (c :: str) ↔ NewlinesReset (columnStep x c) str := by
  rw [newlinesReset_cons]
  constructor
  · exact fun both => both.2
  · exact fun later => ⟨fun same => absurd same notNewline, later⟩

end Newlines

/-! ## Where the lists part -/

section Lists

variable {x y c : Byte} {str : List Byte}

theorem cellAddress_inj {first second : Byte} :
    cellAddress first y = cellAddress second y ↔ first = second := by
  rw [cellAddress, cellAddress]
  constructor
  · intro same
    apply BitVec.eq_of_toNat_eq
    omega
  · rintro rfl
    rfl

/-- The two lists with the newline in the first column and in its own. -/
def Agree (str : List Byte) (first second y : Byte) : Prop :=
  strStores (fun _ => 0#8) str first y = strStores id str second y

theorem agree_return {first second : Byte} :
    Agree (carriageReturn :: str) first second y ↔ Agree str 0#8 0#8 y := by
  rw [Agree, strStores, strStores, if_pos rfl, if_pos rfl]
  rfl

theorem agree_newline {first second : Byte} :
    Agree (newline :: str) first second y ↔
      Agree str 0#8 second (y + 1#8) := by
  rw [Agree, strStores, strStores, if_neg (by decide), if_pos rfl,
    if_neg (by decide), if_pos rfl]
  rfl

/-- A character has to have the same cell in both. -/
theorem agree_other {first second : Byte} (notReturn : c ≠ carriageReturn)
    (notNewline : c ≠ newline) :
    Agree (c :: str) first second y ↔
      first = second ∧
        Agree str (nextColumn first) (nextColumn second)
          (nextRow first y) := by
  rw [Agree, strStores, strStores, if_neg notReturn, if_neg notNewline,
    if_neg notReturn, if_neg notNewline, List.cons.injEq, Prod.mk.injEq,
    cellAddress_inj]
  constructor
  · rintro ⟨⟨rfl, -⟩, later⟩
    exact ⟨rfl, later⟩
  · rintro ⟨rfl, later⟩
    exact ⟨⟨rfl, rfl⟩, later⟩

/-- The lists agree from one column, and from two that have parted. -/
theorem agree_iff (str : List Byte) :
    (∀ x y, Agree str x x y ↔ NewlinesReset x str) ∧
      ∀ x y, x ≠ 0#8 →
        (Agree str 0#8 x y ↔ Resets str ∧ NewlinesReset 0#8 str) := by
  induction str with
  | nil =>
      constructor
      · intro x y
        exact iff_of_true rfl newlinesReset_nil
      · intro x y parted
        exact iff_of_true rfl ⟨resets_nil, newlinesReset_nil⟩
  | cons c str hypothesis =>
      rcases hypothesis with ⟨together, apart⟩
      by_cases isReturn : c = carriageReturn
      · rw [isReturn]
        have later : ∀ x, NewlinesReset x (carriageReturn :: str) ↔
            NewlinesReset 0#8 str :=
          fun x => newlinesReset_other (by decide)
        constructor
        · intro x y
          rw [agree_return, together, later]
        · intro x y parted
          rw [agree_return, together, later]
          exact (and_iff_right resets_return).symm
      by_cases isNewline : c = newline
      · rw [isNewline]
        have later : ∀ x, columnStep x newline = 0#8 :=
          fun x => rfl
        constructor
        · intro x y
          rw [agree_newline, newlinesReset_cons, later]
          by_cases first : x = 0#8
          · rw [first, together]
            exact (and_iff_right fun _ absent => absurd rfl absent).symm
          · rw [apart x _ first]
            simp [first]
        · intro x y parted
          rw [agree_newline, apart x _ parted, newlinesReset_cons, later,
            resets_newline]
          simp
      · have later : ∀ x, columnStep x c = nextColumn x := by
          intro x
          rw [columnStep, if_neg (by simp [isReturn, isNewline])]
        constructor
        · intro x y
          rw [agree_other isReturn isNewline, newlinesReset_other isNewline,
            together, later]
          exact and_iff_right rfl
        · intro x y parted
          rw [agree_other isReturn isNewline]
          constructor
          · rintro ⟨same, -⟩
            exact absurd same.symm parted
          · rintro ⟨resets, -⟩
            exact absurd resets (not_resets isReturn isNewline)

end Lists

/-! ## The stores of the two functions -/

section Stores

variable {console : ConsoleState} {x y c : Byte}

@[simp]
theorem stores_outbP (value : Byte) (port : Half) :
    stores (outbP value port console) = stores console := by
  simp [stores, outbP]

@[simp]
theorem stores_updateCursor :
    stores (updateCursor console) = stores console := by
  rw [updateCursor]
  split
  · simp only [outAddress, stores_outbP]
  · simp only [outAddress, stores_outbP]

theorem stores_putCharPos :
    stores (putCharPos c x y console) =
      stores console ++ [(cellAddress x y, cellValue c)] := by
  simp [stores, putCharPos]

theorem stores_putStrPos (str : List Byte) :
    stores (putStrPos str x y console) =
      stores console ++ strStores id str x y := by
  induction str generalizing x y console with
  | nil => exact (List.append_nil _).symm
  | cons c str hypothesis =>
      rw [putStrPos, strStores, nextColumn, nextRow]
      split
      · exact hypothesis
      · split
        · exact hypothesis
        · split
          · rw [hypothesis, stores_putCharPos, List.append_assoc]
            rfl
          · rw [hypothesis, stores_putCharPos, List.append_assoc]
            rfl

theorem putStrPos_cursorPos (str : List Byte) :
    (putStrPos str x y console).cursorPos = console.cursorPos := by
  induction str generalizing x y console with
  | nil => rfl
  | cons c str hypothesis =>
      rw [putStrPos]
      split
      · exact hypothesis
      · split
        · exact hypothesis
        · split
          · exact hypothesis
          · exact hypothesis

/-- The bytes that `put_char_pos` gets for the cursor. -/
structure At (console : ConsoleState) (x y : Byte) : Prop where
  column : console.cursorPos.x = x.setWidth 32
  row : narrow console.cursorPos.y = y

theorem At.narrowColumn (here : At console x y) :
    narrow console.cursorPos.x = x := by
  rw [here.column, narrow, BitVec.setWidth_setWidth_of_le x (by decide),
    BitVec.setWidth_eq]

theorem At.nextRow (here : At console x y) :
    narrow (console.cursorPos.y + 1#32) = y + 1#8 := by
  rw [← here.row, narrow, narrow, BitVec.setWidth_add _ _ (by decide)]
  rfl

theorem At.advance (here : At console x y) :
    (advance console.cursorPos).x = (nextColumn x).setWidth 32 ∧
      narrow (advance console.cursorPos).y = PositionedText.nextRow x y := by
  have small := x.isLt
  have last : console.cursorPos.x < BitVec.ofNat 32 columns - 1#32 ↔
      x.toNat < columns - 1 := by
    rw [here.column, BitVec.lt_def, BitVec.toNat_setWidth,
      Nat.mod_eq_of_lt (Nat.lt_trans small (by decide))]
    rfl
  rw [Screen.advance, nextColumn, PositionedText.nextRow]
  by_cases inRow : x.toNat < columns - 1
  · rw [if_pos (last.mpr inRow), if_pos inRow, if_pos inRow]
    constructor
    · change console.cursorPos.x + 1#32 = _
      rw [columns] at inRow
      apply BitVec.eq_of_toNat_eq
      rw [here.column, BitVec.toNat_add, BitVec.toNat_setWidth,
        BitVec.toNat_setWidth, BitVec.toNat_add, BitVec.toNat_ofNat,
        BitVec.toNat_ofNat]
      omega
    · exact here.row
  · rw [if_neg (fun before => inRow (last.mp before)), if_neg inRow,
      if_neg inRow]
    constructor
    · rfl
    · exact here.nextRow

theorem stores_putStr (str : List Byte) (here : At console x y) :
    stores (putStr str console) =
      stores console ++ strStores (fun _ => 0#8) str x y := by
  induction str generalizing x y console with
  | nil => exact (List.append_nil _).symm
  | cons c str hypothesis =>
      change stores (putStr str (putChar c console)) = _
      rw [putChar, strStores]
      by_cases isReturn : c = carriageReturn
      · rw [if_pos isReturn, if_pos isReturn, hypothesis (x := 0#8) (y := y)]
        · rw [stores_updateCursor]
          rfl
        · constructor
          · rw [updateCursor_cursorPos]
            rfl
          · rw [updateCursor_cursorPos]
            exact here.row
      by_cases isNewline : c = newline
      · rw [if_neg isReturn, if_pos isNewline, if_neg isReturn,
          if_pos isNewline, hypothesis (x := 0#8) (y := y + 1#8)]
        · rw [stores_updateCursor]
          rfl
        · constructor
          · rw [updateCursor_cursorPos]
            rfl
          · rw [updateCursor_cursorPos]
            exact here.nextRow
      · rw [if_neg isReturn, if_neg isNewline, if_neg isReturn,
          if_neg isNewline,
          hypothesis (x := nextColumn x) (y := PositionedText.nextRow x y)]
        · rw [stores_updateCursor]
          change stores (putCharPos _ _ _ console) ++ _ = _
          rw [stores_putCharPos, here.narrowColumn, here.row,
            List.append_assoc]
          rfl
        · constructor
          · rw [updateCursor_cursorPos]
            exact here.advance.1
          · rw [updateCursor_cursorPos]
            exact here.advance.2

theorem at_cursorAt : At (cursorAt x y console) x y := by
  constructor
  · rfl
  · change narrow (y.setWidth 32) = y
    rw [narrow, BitVec.setWidth_setWidth_of_le y (by decide),
      BitVec.setWidth_eq]

end Stores

/--
`put_str_pos` works as `put_str` does on strings whose newlines stand in the
first column, or before the next carriage return.
-/
theorem putStrPos_sameCells_iff (str : List Byte) (x y : Byte)
    (console : ConsoleState) :
    SameCells str x y console ↔ NewlinesReset x str := by
  have same : stores (cursorAt x y console) = stores console :=
    rfl
  rw [SameCells, stores_putStrPos, stores_putStr str at_cursorAt, same,
    List.append_cancel_left_eq, ← (agree_iff str).1 x y]
  constructor
  · exact fun both => both.1.symm
  · exact fun agree => ⟨agree.symm, putStrPos_cursorPos str⟩

/-- A newline behind a letter: the next letter stays in the second column. -/
theorem putStrPos_newline :
    ¬SameCells [97#8, 10#8, 98#8] 0#8 0#8 bootConsole := by
  intro same
  have listed := same.1
  revert listed
  decide

end MagicalOs.Console.PositionedText
