import MagicalOs.Console.LineInput
import MagicalOs.Library.EditedLine

/-!
# The line that `get_line` returns

The reference editor knows only the characters of the keys that go down.  The
loop of `get_line` keeps its line in front of the index, and the NUL behind it
ends the string of the caller, unless a key that `keymap` maps to NUL stands in
the line.
-/

namespace MagicalOs.Console.LineEditing

open MagicalOs.Library.ByteMemory
open MagicalOs.Library.CString
open MagicalOs.Library.EditedLine
open MagicalOs.Console.Screen
open MagicalOs.Console.LineInput

/-! ## The reference editor -/

/-- The characters of the keys that go down. -/
def pressed (codes : List Byte) : List Byte :=
  (codes.filter fun code => code &&& brake = 0#8).map fun code =>
    keymap.getD code.toNat 0#8

/-- Only the place of the NUL is left. -/
def Full (bufSize : Word) (length : Nat) : Prop :=
  length + 1 = bufSize.toNat

instance (bufSize : Word) : DecidablePred (Full bufSize) :=
  fun length => inferInstanceAs (Decidable (length + 1 = bufSize.toNat))

/-- The line that the scan codes end, if they do. -/
def reference (bufSize : Word) (codes : List Byte) : Option (List Byte) :=
  editLine asciiBs newline (Full bufSize) (pressed codes) []

/-- The outcome of a call is that of the reference editor. -/
def Reads (bufSize : Word) (codes : List Byte) : Except Stop Line → Prop
  | .ok line =>
      reference bufSize codes = some (line.buf.take line.i.toNat) ∧
        0#8 ∉ line.buf.take line.i.toNat ∧
        line.buf[line.i.toNat]? = some 0#8 ∧
        (text line.buf).length = line.i.toNat
  | .error .asleep => reference bufSize codes = none
  | .error (.fault _) => False

/-- In a line that ends, no key mapped to NUL stands. -/
def NulsDeleted (bufSize : Word) (codes : List Byte) : Prop :=
  ∀ before after rest, pressed codes = (before ++ 0#8 :: after) ++ rest →
    Ends asciiBs newline (Full bufSize) 0 (before ++ 0#8 :: after) rest →
      ¬Stands asciiBs before 0#8 after

/-! ## The keys that `get_char` returns -/

section Keys

variable {codes : List Byte} {code : Byte}

theorem pressed_release (release : code &&& brake ≠ 0#8) :
    pressed (code :: codes) = pressed codes := by
  simp [pressed, release]

theorem pressed_press (press : code &&& brake = 0#8) :
    pressed (code :: codes) = keymap.getD code.toNat 0#8 :: pressed codes := by
  simp [pressed, press]

theorem and_not_brake :
    ∀ code : Byte, code &&& brake = 0#8 → code &&& ~~~brake = code := by
  decide

/-- `get_char` takes the next of the characters, or none is left. -/
theorem getChar_pressed (codes : List Byte) :
    (getChar codes = none ∧ pressed codes = []) ∨
      ∃ c rest, getChar codes = some (c, rest) ∧
        pressed codes = c :: pressed rest ∧ rest.length < codes.length := by
  induction codes with
  | nil => exact .inl ⟨rfl, rfl⟩
  | cons code codes hypothesis =>
      by_cases press : code &&& brake = 0#8
      · refine .inr ⟨keymap.getD code.toNat 0#8, codes, ?_,
          pressed_press press, Nat.lt_succ_self _⟩
        rw [getChar, getKeycodePressed, if_neg (not_not.mpr press),
          and_not_brake code press]
      · have skipped : getChar (code :: codes) = getChar codes := by
          rw [getChar, getKeycodePressed, if_pos press, getChar]
        rw [skipped, pressed_release press]
        rcases hypothesis with asleep | ⟨c, rest, found, equal, shorter⟩
        · exact .inl asleep
        · exact .inr ⟨c, rest, found, equal, Nat.lt_succ_of_lt shorter⟩

end Keys

/-! ## The loop -/

section Loop

variable {buf codes : List Byte} {bufSize i : Word} {console : ConsoleState}
  {c : Byte}

/-- The outcome of the loop for the line that the reference editor ends. -/
def Follows (ended : Option (List Byte)) : Except Stop Line → Prop
  | .ok line => ended = some (line.buf.take line.i.toNat)
  | .error .asleep => ended = none
  | .error (.fault _) => False

/-- The test of the loop, for an index in the buffer. -/
theorem lt_size_iff (inside : i.toNat < bufSize.toNat) :
    i < bufSize - 1#32 ↔ i.toNat + 1 < bufSize.toNat := by
  have bound := bufSize.isLt
  rw [BitVec.lt_def, BitVec.toNat_sub]
  change i.toNat < (2 ^ 32 - 1 + bufSize.toNat) % 2 ^ 32 ↔ _
  omega

theorem toNat_pred (nonzero : i ≠ 0#32) :
    (i - 1#32).toNat = i.toNat - 1 := by
  have positive : i.toNat ≠ 0 :=
    fun zero => nonzero (BitVec.eq_of_toNat_eq zero)
  have bound := i.isLt
  rw [BitVec.toNat_sub]
  change (2 ^ 32 - 1 + i.toNat) % 2 ^ 32 = _
  omega

theorem toNat_succ (small : i.toNat + 1 < 2 ^ 32) :
    (i + 1#32).toNat = i.toNat + 1 := by
  rw [BitVec.toNat_add]
  exact Nat.mod_eq_of_lt small

/-- What is in front of the index after a deletion. -/
theorem take_pred (nonzero : i ≠ 0#32) (inside : i.toNat < buf.length) :
    (buf.set i.toNat c).take (i - 1#32).toNat =
      edit asciiBs (buf.take i.toNat) asciiBs := by
  rw [toNat_pred nonzero, edit_erase, List.dropLast_take inside,
    List.take_set_of_le]
  omega

theorem take_succ (other : c ≠ asciiBs) (inside : i.toNat < buf.length)
    (small : i.toNat + 1 < 2 ^ 32) :
    (buf.set i.toNat c).take (i + 1#32).toNat =
      edit asciiBs (buf.take i.toNat) c := by
  rw [toNat_succ small, edit_other other, List.take_add_one,
    List.take_set_of_le le_rfl, List.getElem?_set_self inside]
  rfl

/-- The line in front of the index is that of the reference editor. -/
theorem getLineLoop_follows {rounds : Nat} (room : bufSize.toNat ≤ buf.length)
    (inside : i.toNat < bufSize.toNat) (enough : codes.length < rounds) :
    Follows
      (editLine asciiBs newline (Full bufSize) (pressed codes)
        (buf.take i.toNat))
      (getLineLoop bufSize rounds codes buf i console) := by
  induction rounds generalizing codes buf i console with
  | zero => exact absurd enough (Nat.not_lt_zero _)
  | succ rounds hypothesis =>
      have inBuffer : i.toNat < buf.length := by omega
      have bound := bufSize.isLt
      have length : (buf.take i.toNat).length = i.toNat :=
        List.length_take_of_le inBuffer.le
      rw [getLineLoop]
      split
      · rename_i before
        rw [lt_size_iff inside] at before
        have notFull : ¬Full bufSize (buf.take i.toNat).length := by
          rw [Full, length]
          omega
        rcases getChar_pressed codes with
          ⟨asleep, noKey⟩ | ⟨c, rest, found, equal, shorter⟩
        · rw [asleep, noKey]
          exact if_neg notFull
        · have stores : storeBuf buf i c = .ok (buf.set i.toNat c) :=
            storeBuf_inside inBuffer
          have stillRoom : bufSize.toNat ≤ (buf.set i.toNat c).length := by
            rwa [List.length_set]
          have fewer : rest.length < rounds := by omega
          simp only [found, stores, ok_bind]
          rw [equal, editLine, if_neg notFull]
          by_cases erases : c = asciiBs
          · subst erases
            rw [if_pos rfl, if_neg (by decide)]
            by_cases zero : i = 0#32
            · rw [if_pos zero]
              subst zero
              exact hypothesis stillRoom inside fewer
            · rw [if_neg zero, ← take_pred zero inBuffer]
              apply hypothesis stillRoom _ fewer
              rw [toNat_pred zero]
              omega
          · rw [if_neg erases]
            by_cases ends : c = newline
            · rw [if_pos ends, if_pos ends]
              change some _ = some ((buf.set i.toNat c).take i.toNat)
              rw [List.take_set_of_le le_rfl]
            · rw [if_neg ends, if_neg ends,
                ← take_succ erases inBuffer (by omega)]
              apply hypothesis stillRoom _ fewer
              rw [toNat_succ (by omega)]
              exact before
      · rename_i after
        rw [lt_size_iff inside] at after
        apply editLine_full
        rw [Full, length]
        omega

end Loop

/-! ## The call -/

section Call

variable {buf codes : List Byte} {bufSize : Word} {console : ConsoleState}

/-- Where a NUL stands in the line, its key was not taken back. -/
theorem nulsDeleted_iff :
    NulsDeleted bufSize codes ↔
      ∀ line, reference bufSize codes = some line → 0#8 ∉ line := by
  constructor
  · intro deleted line ended member
    rcases editLine_eq_some.mp ended with ⟨typed, rest, equal, ends, rfl⟩
    rcases mem_edited.mp member with ⟨before, after, rfl, stands⟩
    exact deleted before after rest equal ends stands
  · intro free before after rest equal ends stands
    have ended : reference bufSize codes =
        some (edited asciiBs [] (before ++ 0#8 :: after)) :=
      editLine_eq_some.mpr ⟨_, rest, equal, ends, rfl⟩
    exact free _ ended (mem_edited.mpr ⟨before, after, rfl, stands⟩)

/-- A NUL behind a line without NULs ends the string of the buffer. -/
theorem text_set {index : Nat} (inside : index < buf.length)
    (free : 0#8 ∉ buf.take index) :
    (text (buf.set index 0#8)).length = index := by
  rw [List.set_eq_take_append_cons_drop, if_pos inside, text_append]
  · exact List.length_take_of_le inside.le
  · intro byte member zero
    rw [zero] at member
    exact free member

/-- With room for the NUL, the call does what the reference editor does. -/
theorem getLine_reads (room : buf.length = bufSize.toNat)
    (positive : bufSize ≠ 0#32) :
    Reads bufSize codes (getLine codes buf bufSize console) ↔
      ∀ line, reference bufSize codes = some line → 0#8 ∉ line := by
  have inside : (0#32).toNat < bufSize.toNat :=
    Nat.pos_of_ne_zero fun zero => positive (BitVec.eq_of_toNat_eq zero)
  have follows : Follows (reference bufSize codes)
      (getLineLoop bufSize (codes.length + 1) codes buf 0#32 console) :=
    getLineLoop_follows room.ge inside (Nat.lt_succ_self codes.length)
  have stays : Inside bufSize
      (getLineLoop bufSize (codes.length + 1) codes buf 0#32 console) :=
    getLineLoop_inside room.ge inside
  rw [getLine]
  rcases loop : getLineLoop bufSize (codes.length + 1) codes buf 0#32 console
    with stop | looped
  · rw [loop] at follows stays
    cases stays
    change reference bufSize codes = none ↔ _
    rw [show reference bufSize codes = none from follows]
    simp
  · rw [loop] at follows stays
    change reference bufSize codes = _ at follows
    change looped.i.toNat < bufSize.toNat at stays
    have inBuffer : looped.i.toNat < looped.buf.length := by
      rw [getLineLoop_length loop, room]
      exact stays
    have kept : (looped.buf.set looped.i.toNat 0#8).take looped.i.toNat =
        looped.buf.take looped.i.toNat :=
      List.take_set_of_le le_rfl
    rw [ok_bind, storeBuf_inside inBuffer]
    change (reference bufSize codes =
        some ((looped.buf.set looped.i.toNat 0#8).take looped.i.toNat) ∧
      0#8 ∉ (looped.buf.set looped.i.toNat 0#8).take looped.i.toNat ∧
      (looped.buf.set looped.i.toNat 0#8)[looped.i.toNat]? = some 0#8 ∧
      (text (looped.buf.set looped.i.toNat 0#8)).length = looped.i.toNat) ↔ _
    rw [kept, List.getElem?_set_self inBuffer, follows]
    constructor
    · rintro ⟨-, free, -⟩ line equal
      cases equal
      exact free
    · intro free
      have lineFree := free _ rfl
      exact ⟨rfl, lineFree, rfl, text_set inBuffer lineFree⟩

/-- In an empty buffer the first key is stored behind the end. -/
theorem getLine_empty_buffer :
    Reads 0#32 codes (getLine codes [] 0#32 console) ↔ pressed codes = [] := by
  rw [getLine, getLineLoop, if_pos (by decide)]
  rcases getChar_pressed codes with
    ⟨asleep, noKey⟩ | ⟨c, rest, found, equal, shorter⟩
  · simp only [asleep, noKey, error_bind]
    change reference 0#32 codes = none ↔ _
    rw [reference, noKey]
    simp [editLine, Full]
  · simp only [found, equal]
    constructor
    · exact False.elim
    · intro empty
      cases empty

/--
`get_line` stays in the buffer and returns the line of the reference editor as
a C string, exactly when the buffer has a byte, or no key goes down, and every
key that `keymap` maps to NUL is taken back before the line ends.
-/
theorem getLine_reads_iff (room : buf.length = bufSize.toNat) :
    Reads bufSize codes (getLine codes buf bufSize console) ↔
      (bufSize = 0#32 → pressed codes = []) ∧ NulsDeleted bufSize codes := by
  rw [nulsDeleted_iff]
  by_cases empty : bufSize = 0#32
  · subst empty
    have noByte : buf = [] := List.eq_nil_of_length_eq_zero room
    rw [noByte, getLine_empty_buffer]
    constructor
    · intro noKey
      refine ⟨fun _ => noKey, ?_⟩
      intro line ended
      rw [reference, noKey] at ended
      cases ended
    · exact fun both => both.1 rfl
  · rw [getLine_reads room empty]
    constructor
    · exact fun free => ⟨fun zero => absurd zero empty, free⟩
    · exact fun both => both.2

/-- The keys `a` and return, for a buffer of sixteen bytes. -/
theorem getLine_reads_letter :
    Reads 16#32 [0x1e#8, 0x1c#8]
      (getLine [0x1e#8, 0x1c#8] (List.replicate 16 0xff#8) 16#32
        ⟨⟨0#32, 0#32⟩, []⟩) := by
  apply (getLine_reads_iff rfl).mpr
  constructor
  · intro empty
    cases empty
  · intro before after rest equal
    have member : 0#8 ∈ pressed [0x1e#8, 0x1c#8] := by
      rw [equal]
      simp
    exact absurd member (by decide)

/-- The left shift key alone gives a line of one character and no string. -/
theorem getLine_reads_shift :
    ¬Reads 16#32 [0x2a#8, 0x1c#8]
      (getLine [0x2a#8, 0x1c#8] (List.replicate 16 0xff#8) 16#32
        ⟨⟨0#32, 0#32⟩, []⟩) := by
  intro reads
  have length := reads.2.2.2
  revert length
  decide

end Call

end MagicalOs.Console.LineEditing
