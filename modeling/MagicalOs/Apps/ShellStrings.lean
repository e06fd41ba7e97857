import MagicalOs.Library.CString
import MagicalOs.Library.StringOrder

/-!
# The string functions of the shell

The shell splits a line at its first space into arrays whose sizes it does not
pass along.  Every access is checked against the array it is made for, so a
split that does not fit ends with a fault.
-/

namespace MagicalOs.Apps.ShellStrings

open MagicalOs.Library.ByteMemory
open MagicalOs.Library.CString
open MagicalOs.Library.StringOrder

/-! ## The functions -/

/-- `copy_mem`: the rest of the source, and the place in the destination. -/
def copyMem :
    List Byte → List Byte → Nat → Nat → Except Fault (List Byte)
  | _, dst, _, 0 => .ok dst
  | [], _, _, _ + 1 => .error .load
  | byte :: src, dst, d, size + 1 => do
      let dst ← store dst d byte
      copyMem src dst (d + 1) size

/-- The loop of `str_get_len`. -/
def strGetLenLoop : List Byte → Int → Except Fault Int
  | [], _ => .error .load
  | c :: src, len =>
      if c ≠ 0#8 then strGetLenLoop src (len + 1) else .ok (len + 1)

/-- `str_get_len` counts the NUL. -/
def strGetLen (src : List Byte) : Except Fault Int :=
  strGetLenLoop src 0

/-- The loop of `str_find_char`. -/
def strFindCharLoop (key : Byte) : List Byte → Int → Except Fault Int
  | [], _ => .error .load
  | c :: src, i =>
      if c ≠ key then
        if c = 0#8 then .ok (-1) else strFindCharLoop key src (i + 1)
      else
        .ok i

def strFindChar (src : List Byte) (key : Byte) : Except Fault Int :=
  strFindCharLoop key src 0

def space : Byte := 32#8

/-- `str_get_first_entry`: the contents of `first` and `other` afterwards. -/
def strGetFirstEntry (line first other : List Byte) :
    Except Fault (List Byte × List Byte) := do
  let lineLen ← strGetLen line
  let firstLen ← strFindChar line space
  if firstLen < 0 then
    let first ← copyMem line first 0 lineLen.toNat
    let other ← store other 0 0#8
    return (first, other)
  else
    let first ← copyMem line first 0 firstLen.toNat
    let first ← store first firstLen.toNat 0#8
    let firstLen := firstLen + 1
    let otherLen := lineLen - firstLen
    let other ← copyMem (line.drop firstLen.toNat) other 0 otherLen.toNat
    return (first, other)

/-- `str_compare`; a `char` is signed. -/
def strCompare : List Byte → List Byte → Except Fault Int
  | src :: srcRest, dst :: dstRest =>
      if src ≠ 0#8 ∧ dst ≠ 0#8 then
        if src ≠ dst then .ok (src.toInt - dst.toInt)
        else strCompare srcRest dstRest
      else if src ≠ 0#8 then
        .ok 1
      else if dst ≠ 0#8 then
        .ok (-1)
      else
        .ok 0
  | _, _ => .error .load

/-- `pow`, with the wrap-around of `int`. -/
def pow (num : Word) : Nat → Word
  | 0 => 1#32
  | multer + 1 => pow num multer * num

/-- The loop of `str_conv_ahex_int`. -/
def strConvAhexIntLoop (len : Int) :
    List Byte → Int → Word → Except Fault Word
  | [], _, _ => .error .load
  | c :: rest, i, val =>
      if c ≠ 0#8 then
        let digit :=
          if 48 ≤ c.toInt ∧ c.toInt ≤ 57 then c.signExtend 32 - 48#32
          else c.signExtend 32 - 97#32 + 10#32
        strConvAhexIntLoop len rest (i + 1)
          (val + digit * pow 16#32 (len - 2 - i).toNat)
      else
        .ok val

def strConvAhexInt (hexStr : List Byte) : Except Fault Word := do
  let len ← strGetLen hexStr
  strConvAhexIntLoop len hexStr 0 0#32

/-! ## Words of a line -/

/-- The part of a line in front of its first space. -/
def firstWord (line : List Byte) : List Byte :=
  line.takeWhile (· ≠ space)

/-- The part of a line behind its first space. -/
def remainder (line : List Byte) : List Byte :=
  (line.dropWhile (· ≠ space)).drop 1

/-- Both parts leave room for a NUL in arrays of the given sizes. -/
def Fits (firstSize otherSize : Nat) (line : List Byte) : Prop :=
  (firstWord line).length < firstSize ∧ (remainder line).length < otherSize

section Words

variable {line : List Byte}

/-- A line without a space is its own first word. -/
theorem words_of_not_mem (single : space ∉ line) :
    firstWord line = line ∧ remainder line = [] := by
  have all : ∀ c ∈ line, decide (c ≠ space) = true := by
    intro c member
    rw [decide_eq_true_eq]
    exact fun equal => single (equal ▸ member)
  constructor
  · rw [firstWord]
    exact List.takeWhile_eq_self_iff.mpr all
  · rw [remainder, List.dropWhile_eq_nil_iff.mpr all]
    rfl

/-- A line with a space is made of its two parts. -/
theorem words_of_mem (several : space ∈ line) :
    line = firstWord line ++ space :: remainder line := by
  induction line with
  | nil => cases several
  | cons c line hypothesis =>
      rw [firstWord, remainder]
      by_cases isSpace : c = space
      · simp [isSpace]
      · have later : space ∈ line := by
          rcases List.mem_cons.mp several with equal | later
          · exact absurd equal.symm isSpace
          · exact later
        have parts := hypothesis later
        rw [firstWord, remainder] at parts
        simpa [isSpace] using parts

theorem firstWord_append {word rest : List Byte} (noSpace : space ∉ word) :
    firstWord (word ++ space :: rest) = word ∧
      remainder (word ++ space :: rest) = rest := by
  induction word with
  | nil => simp [firstWord, remainder]
  | cons c word hypothesis =>
      have other : c ≠ space :=
        fun equal => noSpace (by simp [equal])
      have parts := hypothesis (fun member => noSpace (by simp [member]))
      simpa [firstWord, remainder, other] using parts

end Words

/-! ## What the loops compute -/

section Loops

variable {src dst : List Byte} {d size : Nat} {key : Byte}

theorem strGetLenLoop_eq (terminated : Terminated src) (len : Int) :
    strGetLenLoop src len = .ok (len + (text src).length + 1) := by
  induction src generalizing len with
  | nil => exact absurd terminated (by simp [Terminated])
  | cons c src hypothesis =>
      rw [strGetLenLoop]
      by_cases nonzero : c ≠ 0#8
      · rw [if_pos nonzero,
          hypothesis ((terminated_cons nonzero).mp terminated),
          text_cons nonzero, List.length_cons]
        push_cast
        congr 1
        omega
      · rw [if_neg nonzero, not_not.mp nonzero, text_zero]
        simp

theorem strGetLen_eq (terminated : Terminated src) :
    strGetLen src = .ok ((text src).length + 1) := by
  rw [strGetLen, strGetLenLoop_eq terminated, Int.zero_add]

/-- The index of a key in the string, or -1. -/
theorem strFindCharLoop_eq (terminated : Terminated src) (visible : key ≠ 0#8)
    (i : Int) :
    strFindCharLoop key src i =
      .ok (if key ∈ text src then i + ((text src).takeWhile (· ≠ key)).length
        else -1) := by
  induction src generalizing i with
  | nil => exact absurd terminated (by simp [Terminated])
  | cons c src hypothesis =>
      rw [strFindCharLoop]
      by_cases found : c = key
      · rw [found, if_neg (not_not.mpr rfl), text_cons visible]
        simp
      rw [if_pos found]
      by_cases zero : c = 0#8
      · rw [if_pos zero, zero, text_zero]
        simp
      rw [if_neg zero, hypothesis ((terminated_cons zero).mp terminated),
        text_cons zero]
      have other : ¬key = c :=
        fun equal => found equal.symm
      simp only [List.mem_cons, other, false_or, List.takeWhile_cons, found,
        ne_eq, not_false_eq_true, decide_true, if_true, List.length_cons]
      push_cast
      congr 2
      omega

/-- Inside both arrays, `copy_mem` replaces a part of the destination. -/
theorem copyMem_inside (enough : size ≤ src.length)
    (room : d + size ≤ dst.length) :
    copyMem src dst d size =
      .ok (dst.take d ++ src.take size ++ dst.drop (d + size)) := by
  induction size generalizing src dst d with
  | zero => simp [copyMem]
  | succ size hypothesis =>
      cases src with
      | nil => simp at enough
      | cons byte src =>
          rw [List.length_cons] at enough
          have inside : d < dst.length := by
            omega
          rw [copyMem, store_inside inside]
          change copyMem src (dst.set d byte) (d + 1) size = _
          rw [hypothesis (by omega) (by rw [List.length_set]; omega)]
          have taken :
              (dst.set d byte).take (d + 1) = dst.take d ++ [byte] := by
            rw [List.take_succ_eq_append_getElem
                (by rw [List.length_set]; omega),
              List.getElem_set_self, List.take_set_of_le (Nat.le_refl d)]
          have dropped : (dst.set d byte).drop (d + 1 + size) =
              dst.drop (d + (size + 1)) := by
            rw [List.drop_set_of_lt (by omega)]
            congr 1
            omega
          rw [taken, dropped]
          simp

/-- A copy behind the end of the destination faults. -/
theorem copyMem_outside (enough : size ≤ src.length) (start : d ≤ dst.length)
    (noRoom : dst.length < d + size) :
    copyMem src dst d size = .error .store := by
  induction size generalizing src dst d with
  | zero => omega
  | succ size hypothesis =>
      cases src with
      | nil => simp at enough
      | cons byte src =>
          rw [List.length_cons] at enough
          rw [copyMem]
          by_cases inside : d < dst.length
          · rw [store_inside inside]
            change copyMem src (dst.set d byte) (d + 1) size = _
            exact hypothesis (by omega) (by rw [List.length_set]; omega)
              (by rw [List.length_set]; omega)
          · rw [store_outside inside]
            rfl

end Loops

/-! ## Splitting a line -/

/-- An array of a given size that holds a string. -/
structure HoldsString (array : List Byte) (size : Nat) (string : List Byte) :
    Prop where
  length : array.length = size
  terminated : Terminated array
  text : text array = string

/-- An array after a string and its NUL have been written to its beginning. -/
def overwrite (array string : List Byte) : List Byte :=
  string ++ 0#8 :: array.drop (string.length + 1)

section Split

variable {line array first other string rest : List Byte}

theorem holds_overwrite (nonzero : ∀ byte ∈ string, byte ≠ 0#8)
    (fits : string.length < array.length) :
    HoldsString (overwrite array string) array.length string := by
  constructor
  · rw [overwrite, List.length_append, List.length_cons, List.length_drop]
    omega
  · exact terminated_append
  · exact text_append nonzero

/-- Copying a string together with its NUL. -/
theorem copyMem_string (fits : string.length < array.length) :
    copyMem (string ++ 0#8 :: rest) array 0 (string.length + 1) =
      .ok (overwrite array string) := by
  have source : (string ++ 0#8 :: rest).take (string.length + 1) =
      string ++ [0#8] := by
    rw [List.take_append, List.take_of_length_le (by omega)]
    simp
  rw [copyMem_inside (by simp) (by omega), source, overwrite]
  simp

theorem copyMem_string_outside (noRoom : ¬string.length < array.length) :
    copyMem (string ++ 0#8 :: rest) array 0 (string.length + 1) =
      .error .store :=
  copyMem_outside (by simp) (by omega) (by omega)

/-- Copying a word, which is not followed by a NUL, -/
theorem copyMem_word (fits : string.length < array.length) :
    copyMem (string ++ rest) array 0 string.length =
      .ok (string ++ array.drop string.length) := by
  rw [copyMem_inside (by simp) (by omega)]
  simp

/-- and appending one. -/
theorem store_word (fits : string.length < array.length) :
    store (string ++ array.drop string.length) string.length 0#8 =
      .ok (overwrite array string) := by
  have inside : string.length <
      (string ++ array.drop string.length).length := by
    rw [List.length_append, List.length_drop]
    omega
  rw [store_inside inside, List.set_append_right _ _ (by omega),
    Nat.sub_self, List.drop_eq_getElem_cons fits]
  rfl

/-- A word that is too long faults in the copy or at its NUL. -/
theorem copyMem_word_outside (noRoom : ¬string.length < array.length) :
    copyMem (string ++ rest) array 0 string.length = .error .store ∨
      ∃ copied, copyMem (string ++ rest) array 0 string.length = .ok copied ∧
        store copied string.length 0#8 = .error .store := by
  by_cases equal : array.length = string.length
  · right
    refine ⟨string, ?_, ?_⟩
    · rw [copyMem_inside (by simp) (by omega)]
      simp [equal]
    · exact store_outside (by omega)
  · left
    exact copyMem_outside (by simp) (by omega) (by omega)

theorem store_nul (room : 0 < array.length) :
    store array 0 0#8 = .ok (overwrite array []) := by
  rw [store_inside room]
  cases array with
  | nil => cases room
  | cons head tail => rfl

/-- The second part of a line begins behind the space. -/
theorem drop_word {word source : List Byte} :
    (word ++ space :: source).drop (word.length + 1) = source := by
  rw [List.drop_append]
  simp

theorem space_not_mem_firstWord (line : List Byte) :
    space ∉ firstWord line := by
  intro member
  have holds := List.mem_takeWhile_imp member
  simp at holds

/-- The index of the first space is the length of the first word. -/
theorem strFindChar_space (terminated : Terminated line) :
    strFindChar line space =
      .ok (if space ∈ text line then ((firstWord (text line)).length : Int)
        else -1) := by
  rw [strFindChar, strFindCharLoop_eq terminated (by decide), firstWord,
    Int.zero_add]

/-- A line without a space is copied as a whole. -/
theorem strGetFirstEntry_single (terminated : Terminated line)
    (single : space ∉ text line) :
    strGetFirstEntry line first other =
      (do
        let first ← copyMem line first 0 ((text line).length + 1)
        let other ← store other 0 0#8
        return (first, other)) := by
  have length : (((text line).length : Int) + 1).toNat =
      (text line).length + 1 := by
    omega
  rw [strGetFirstEntry, strGetLen_eq terminated, strFindChar_space terminated,
    if_neg single, ok_bind, ok_bind, if_pos (by decide), length]

/-- A line with a space is copied in two parts. -/
theorem strGetFirstEntry_several {word behind : List Byte}
    (terminated : Terminated line) (parts : text line = word ++ space :: behind)
    (noSpace : space ∉ word) :
    strGetFirstEntry line first other =
      (do
        let first ← copyMem line first 0 word.length
        let first ← store first word.length 0#8
        let other ←
          copyMem (line.drop (word.length + 1)) other 0 (behind.length + 1)
        return (first, other)) := by
  have several : space ∈ text line := by
    rw [parts]
    simp
  have wordEq : firstWord (text line) = word := by
    rw [parts]
    exact (firstWord_append noSpace).1
  have length : (text line).length = word.length + 1 + behind.length := by
    rw [parts, List.length_append, List.length_cons]
    omega
  have offset : ((word.length : Int) + 1).toNat = word.length + 1 := by
    omega
  have size : (((text line).length : Int) + 1 - (word.length + 1)).toNat =
      behind.length + 1 := by
    omega
  rw [strGetFirstEntry, strGetLen_eq terminated, strFindChar_space terminated,
    if_pos several, wordEq, ok_bind, ok_bind, if_neg (by omega)]
  simp only [Int.toNat_natCast, offset, size]

/-- A split that fits delivers the two parts of the line. -/
theorem strGetFirstEntry_fits (terminated : Terminated line)
    (fits : Fits first.length other.length (text line)) :
    ∃ word behind,
      strGetFirstEntry line first other = .ok (word, behind) ∧
        HoldsString word first.length (firstWord (text line)) ∧
        HoldsString behind other.length (remainder (text line)) := by
  have nonzero : ∀ byte ∈ text line, byte ≠ 0#8 :=
    fun byte member => text_ne_zero member
  refine ⟨overwrite first (firstWord (text line)),
    overwrite other (remainder (text line)), ?_, ?_, ?_⟩
  · rcases terminated.split with ⟨rest, lineEq⟩
    by_cases several : space ∈ text line
    · have parts := words_of_mem several
      have noSpace := space_not_mem_firstWord (text line)
      rw [strGetFirstEntry_several terminated parts noSpace]
      rcases fits with ⟨firstFits, otherFits⟩
      generalize firstWord (text line) = word at parts firstFits ⊢
      generalize remainder (text line) = behind at parts otherFits ⊢
      rw [parts, List.append_assoc, List.cons_append] at lineEq
      rw [lineEq, copyMem_word firstFits, ok_bind,
        store_word firstFits, ok_bind, drop_word,
        copyMem_string otherFits, ok_bind]
      rfl
    · rcases words_of_not_mem several with ⟨whole, nothing⟩
      rw [Fits, whole, nothing] at fits
      rw [strGetFirstEntry_single terminated several, whole, nothing]
      rw [lineEq, text_append nonzero, copyMem_string fits.1, ok_bind,
        store_nul fits.2, ok_bind]
      rfl
  · refine holds_overwrite (fun byte member => ?_) fits.1
    exact nonzero byte ((List.takeWhile_sublist _).subset member)
  · refine holds_overwrite (fun byte member => ?_) fits.2
    exact nonzero byte
      ((List.dropWhile_sublist _).subset (List.mem_of_mem_drop member))

/-- The two strings into which a line is split. -/
structure Parts (line word behind : List Byte) : Prop where
  wordEnds : Terminated word
  noSpace : space ∉ text word
  behindEnds : Terminated behind
  whole :
    (space ∉ text line ∧ text word = text line ∧ text behind = []) ∨
      text word ++ [space] ++ text behind = text line

/-- A line is its first entry, a space and the other entries, or has no space
and is its first entry. -/
theorem strGetFirstEntry_parts (terminated : Terminated line)
    (fits : Fits first.length other.length (text line)) :
    ∃ word behind,
      strGetFirstEntry line first other = .ok (word, behind) ∧
        Parts line word behind ∧
        word.length = first.length ∧ behind.length = other.length := by
  rcases strGetFirstEntry_fits terminated fits with
    ⟨word, behind, splits, holdsWord, holdsBehind⟩
  refine ⟨word, behind, splits, ?_, holdsWord.length, holdsBehind.length⟩
  constructor
  · exact holdsWord.terminated
  · rw [holdsWord.text]
    exact space_not_mem_firstWord (text line)
  · exact holdsBehind.terminated
  · rw [holdsWord.text, holdsBehind.text]
    by_cases several : space ∈ text line
    · right
      rw [List.append_assoc]
      exact (words_of_mem several).symm
    · left
      exact ⟨several, words_of_not_mem several⟩

/-- Two letters with a space between them, in arrays that they just fill. -/
theorem strGetFirstEntry_parts_letters :
    let line : List Byte := [97#8, space, 98#8, 0#8]
    Fits 2 2 (text line) ∧ ∃ word behind,
      strGetFirstEntry line [1#8, 1#8] [1#8, 1#8] = .ok (word, behind) ∧
        Parts line word behind ∧ word.length = 2 ∧ behind.length = 2 := by
  intro line
  have terminated : Terminated line := by
    simp [line, Terminated]
  have fits : Fits 2 2 (text line) := by
    rw [Fits]
    decide
  exact ⟨fits, strGetFirstEntry_parts terminated fits⟩

/-- A split that does not fit stores outside an array. -/
theorem strGetFirstEntry_overflows (terminated : Terminated line)
    (overflows : ¬Fits first.length other.length (text line)) :
    strGetFirstEntry line first other = .error .store := by
  have nonzero : ∀ byte ∈ text line, byte ≠ 0#8 :=
    fun byte member => text_ne_zero member
  rcases terminated.split with ⟨rest, lineEq⟩
  by_cases several : space ∈ text line
  · have parts := words_of_mem several
    have noSpace := space_not_mem_firstWord (text line)
    rw [strGetFirstEntry_several terminated parts noSpace]
    rw [Fits] at overflows
    generalize firstWord (text line) = word at parts overflows ⊢
    generalize remainder (text line) = behind at parts overflows ⊢
    rw [parts, List.append_assoc, List.cons_append] at lineEq
    rw [lineEq]
    by_cases firstFits : word.length < first.length
    · have noRoom : ¬behind.length < other.length :=
        fun room => overflows ⟨firstFits, room⟩
      rw [copyMem_word firstFits, ok_bind, store_word firstFits,
        ok_bind, drop_word, copyMem_string_outside noRoom, error_bind]
    · rcases copyMem_word_outside firstFits with stops | ⟨copied, copies, stops⟩
      · rw [stops, error_bind]
      · rw [copies, ok_bind, stops, error_bind]
  · rcases words_of_not_mem several with ⟨whole, nothing⟩
    rw [Fits, whole, nothing] at overflows
    rw [strGetFirstEntry_single terminated several]
    generalize text line = string at lineEq overflows
    rw [lineEq]
    by_cases firstFits : string.length < first.length
    · have noRoom : ¬0 < other.length :=
        fun room => overflows ⟨firstFits, room⟩
      rw [copyMem_string firstFits, ok_bind, store_outside noRoom, error_bind]
    · rw [copyMem_string_outside firstFits, error_bind]

end Split

/-! ## Comparison and conversion -/

section Compare

variable {src dst : List Byte}

/-- `str_compare` finds a shorter string, or the first difference. -/
theorem strCompare_eq (srcEnds : Terminated src) (dstEnds : Terminated dst) :
    strCompare src dst = .ok (outcome shorterFirst (text src) (text dst)) := by
  induction src generalizing dst with
  | nil => exact absurd srcEnds (by simp [Terminated])
  | cons head tail hypothesis =>
      cases dst with
      | nil => exact absurd dstEnds (by simp [Terminated])
      | cons other rest =>
          rw [strCompare]
          by_cases headZero : head = 0#8
          · by_cases otherZero : other = 0#8
            · simp [headZero, otherZero, text_zero]
            · rw [headZero, text_zero, text_cons otherZero]
              simp [otherZero, shorterFirst]
          by_cases otherZero : other = 0#8
          · rw [otherZero, text_zero, text_cons headZero]
            simp [headZero, shorterFirst]
          rw [if_pos ⟨headZero, otherZero⟩, text_cons headZero,
            text_cons otherZero]
          by_cases equal : head = other
          · rw [if_neg (not_not.mpr equal), equal, outcome_cons_self]
            exact hypothesis ((terminated_cons headZero).mp srcEnds)
              ((terminated_cons otherZero).mp dstEnds)
          · rw [if_pos equal, outcome_cons_of_ne equal, shorterFirst,
              if_neg headZero, if_neg otherZero]
            rfl

/-- `str_compare` returns zero for equal strings only. -/
theorem strCompare_spec (srcEnds : Terminated src) (dstEnds : Terminated dst) :
    ∃ order, strCompare src dst = .ok order ∧
      (order = 0 ↔ text src = text dst) := by
  refine ⟨_, strCompare_eq srcEnds dstEnds, ?_⟩
  apply outcome_eq_zero @shorterFirst_ne_zero
  · exact fun byte member => text_ne_zero member
  · exact fun byte member => text_ne_zero member

/-- The conversion reads no further than the NUL. -/
theorem strConvAhexInt_ok (terminated : Terminated src) :
    ∃ value, strConvAhexInt src = .ok value := by
  rw [strConvAhexInt, strGetLen_eq terminated, ok_bind]
  generalize ((text src).length : Int) + 1 = len
  generalize (0 : Int) = i
  generalize 0#32 = val
  induction src generalizing i val with
  | nil => exact absurd terminated (by simp [Terminated])
  | cons c src hypothesis =>
      rw [strConvAhexIntLoop]
      by_cases nonzero : c ≠ 0#8
      · rw [if_pos nonzero]
        exact hypothesis ((terminated_cons nonzero).mp terminated) _ _
      · rw [if_neg nonzero]
        exact ⟨val, rfl⟩

end Compare

end MagicalOs.Apps.ShellStrings
