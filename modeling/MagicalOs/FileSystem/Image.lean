import MagicalOs.Library.HeldBytes
import Mathlib.Data.List.TakeWhile

/-!
# The packed image

`make_os5_fs.sh` writes a page with the number of files, then one page for
each file: a field of 32 bytes for the name, the data, and zeros.  Its
arguments are paths, used without quotes.  A path which the shell would split
or expand, or which the utilities would take for an option, names no file to
`basename`, `dd` and `stat`, so nothing is packed from it.

The name goes through a second command, `echo -n $name`.  A name such as `-n`
is an option there and is not written, although the padding behind it is
computed from its length.  A character of the shell is a byte here.
-/

namespace MagicalOs.FileSystem.Image

open MagicalOs.Library.ByteMemory
open MagicalOs.Library.HeldBytes

/-- An argument of the script, and the content of the file it names. -/
structure SourceFile where
  path : List Byte
  data : List Byte
  deriving DecidableEq

/-- The slash, which separates the components of a path. -/
def slash : Byte := 0x2f#8

/-- The hyphen, with which an option begins. -/
def hyphen : Byte := 0x2d#8

/-- Space, tab, newline, and the characters `*`, `?` and `[` of a pattern. -/
def expanded : List Byte :=
  [0x20#8, 0x09#8, 0x0a#8, 0x2a#8, 0x3f#8, 0x5b#8]

/-- The unquoted path stands for itself, and is no option. -/
def Operand (path : List Byte) : Prop :=
  path ≠ [] ∧ path.head? ≠ some hyphen ∧ ∀ byte ∈ path, byte ∉ expanded

instance (path : List Byte) : Decidable (Operand path) :=
  inferInstanceAs (Decidable (_ ∧ _ ∧ _))

/-- `basename`: what follows the last slash, trailing slashes aside. -/
def basename (path : List Byte) : List Byte :=
  ((path.reverse.dropWhile (· = slash)).takeWhile (· ≠ slash)).reverse

def SourceFile.name (file : SourceFile) : List Byte := basename file.path

/-- The letters `n`, `e` and `E` of the options of `echo`. -/
def optionLetters : List Byte := [0x6e#8, 0x65#8, 0x45#8]

/-- `echo` takes the word for an option. -/
def EchoOption : List Byte → Prop
  | [] => False
  | first :: letters =>
      first = hyphen ∧ letters ≠ [] ∧ ∀ letter ∈ letters, letter ∈ optionLetters

instance : DecidablePred EchoOption
  | [] => inferInstanceAs (Decidable False)
  | _ :: _ => inferInstanceAs (Decidable (_ ∧ _ ∧ _))

/-- `echo -n $word`. -/
def echo (word : List Byte) : List Byte :=
  if EchoOption word then [] else word

/-- `dd if=/dev/zero count=count bs=1`. -/
def zeros (count : Nat) : List Byte := List.replicate count 0#8

/-- The name and the padding behind it. -/
def header (name : List Byte) : List Byte :=
  echo name ++ zeros (32 - name.length)

/-- The data and the padding behind it. -/
def contents (data : List Byte) : List Byte :=
  data ++ zeros (4096 - 32 - data.length)

/-- The body of the loop over the arguments. -/
def packFile (file : SourceFile) : Option (List Byte) :=
  if Operand file.path then
    some (header file.name ++ contents file.data)
  else
    none

/-- The loop over the arguments. -/
def packFiles : List SourceFile → Option (List Byte)
  | [] => some []
  | file :: rest => do
      let page ← packFile file
      let pages ← packFiles rest
      return page ++ pages

/-- `make_os5_fs.sh`. -/
def makeOs5Fs (files : List SourceFile) : Option (List Byte) := do
  let pages ← packFiles files
  return BitVec.ofNat 8 files.length :: zeros 4095 ++ pages

/-! ## The layout of a page -/

section Layout

variable {memory : Memory} {address : Nat} {name data : List Byte}

@[simp]
theorem length_zeros (count : Nat) : (zeros count).length = count :=
  List.length_replicate

theorem holds_zeros {count : Nat} (holds : Holds memory address (zeros count))
    {index : Nat} (inside : index < count) :
    memory (address + index) = 0#8 := by
  have length : index < (zeros count).length := by
    rwa [length_zeros]
  rw [holds.getElem length]
  exact List.getElem_replicate _

theorem echo_of_not_option (word : ¬EchoOption name) : echo name = name :=
  if_neg word

/-- The field of a name which is written has 32 bytes, -/
theorem length_header (word : ¬EchoOption name) (short : name.length < 32) :
    (header name).length = 32 := by
  rw [header, echo_of_not_option word, List.length_append, length_zeros]
  omega

/-- and holds the name as a C string. -/
theorem holdsString_header (word : ¬EchoOption name)
    (nonzero : ∀ byte ∈ name, byte ≠ 0#8) (short : name.length < 32)
    (holds : Holds memory address (header name)) :
    HoldsString memory address name := by
  rw [header, echo_of_not_option word, holds_append] at holds
  rcases holds with ⟨string, padding⟩
  have zero := holds_zeros padding (show 0 < 32 - name.length by omega)
  exact ⟨nonzero, string, zero⟩

theorem length_contents (fits : data.length ≤ 4064) :
    (contents data).length = 4064 := by
  rw [contents, List.length_append, length_zeros]
  omega

end Layout

/-! ## The layout of an image of two files -/

section TwoFiles

variable {memory : Memory} {base : Nat} {image : List Byte}
  {first second : SourceFile}

theorem makeOs5Fs_two (packed : makeOs5Fs [first, second] = some image) :
    image =
      (2#8 :: zeros 4095) ++
        ((header first.name ++ contents first.data) ++
          (header second.name ++ contents second.data)) := by
  simp only [makeOs5Fs, packFiles, packFile, Option.bind_eq_bind,
    Option.pure_def] at packed
  split_ifs at packed
  · simp only [Option.bind_some, Option.some.injEq, List.append_nil]
      at packed
    exact packed.symm
  · simp at packed
  · simp at packed
  · simp at packed

/-- Where the parts of an image lie in the memory. -/
structure Parts (memory : Memory) (base : Nat) (first second : SourceFile) :
    Prop where
  count : memory base = 2#8
  firstHeader : Holds memory (base + 0x1000) (header first.name)
  firstContents :
    Holds memory (base + 0x1000 + (header first.name).length)
      (contents first.data)
  secondHeader :
    Holds memory
      (base + 0x1000 +
        (header first.name ++ contents first.data).length)
      (header second.name)
  secondContents :
    Holds memory
      (base + 0x1000 + (header first.name ++ contents first.data).length +
        (header second.name).length)
      (contents second.data)

theorem parts_of_holds (packed : makeOs5Fs [first, second] = some image)
    (loaded : Holds memory base image) : Parts memory base first second := by
  rw [makeOs5Fs_two packed, holds_append, holds_append, holds_append,
    holds_append] at loaded
  rcases loaded with ⟨control, ⟨header, contents⟩, secondHeader, rest⟩
  have length : (2#8 :: zeros 4095).length = 0x1000 := by
    rw [List.length_cons, length_zeros]
  rw [length] at header contents secondHeader rest
  exact ⟨control.1, header, contents, secondHeader, rest⟩

/-- The length of an image whose names are all written. -/
theorem length_image (packed : makeOs5Fs [first, second] = some image)
    (firstWord : ¬EchoOption first.name) (firstShort : first.name.length < 32)
    (firstFits : first.data.length ≤ 4064)
    (secondWord : ¬EchoOption second.name)
    (secondShort : second.name.length < 32)
    (secondFits : second.data.length ≤ 4064) :
    image.length = 0x3000 := by
  rw [makeOs5Fs_two packed]
  simp only [List.length_append, List.length_cons, length_zeros,
    length_header firstWord firstShort, length_contents firstFits,
    length_header secondWord secondShort, length_contents secondFits]

end TwoFiles

end MagicalOs.FileSystem.Image
