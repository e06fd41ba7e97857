import MagicalOs.Apps.HexNumbers
import MagicalOs.Apps.Shell

/-!
# Commands that write to memory

`writeb`, `writew` and `writel` take a value and an address, both as strings of
hexadecimal digits.  A line with such a command goes through two splits and two
conversions, and ends in one store.
-/

namespace MagicalOs.Apps.WriteCommands

open MagicalOs.Library.ByteMemory
open MagicalOs.Library.CString
open MagicalOs.Library.Numerals
open MagicalOs.Apps.ShellStrings
open MagicalOs.Apps.Shell
open MagicalOs.Apps.HexNumbers
open MagicalOs.Console.Screen
open MagicalOs.Console.LineInput

/-! ## Commands and their stores -/

/-- What the three commands differ in. -/
inductive Width where
  | byte
  | half
  | word

namespace Width

def command : Width → List Byte
  | .byte => ['w', 'r', 'i', 't', 'e', 'b'].map ascii
  | .half => ['w', 'r', 'i', 't', 'e', 'w'].map ascii
  | .word => ['w', 'r', 'i', 't', 'e', 'l'].map ascii

def size : Width → Nat
  | .byte => 1
  | .half => 2
  | .word => 4

/-- The store of a handler. -/
def put (data addr : Word) : Width → Request
  | .byte => .storeByte addr (data.setWidth 8)
  | .half => .storeHalf addr (data.setWidth 16)
  | .word => .storeWord addr data

/-- The number at an address. -/
def load (memory : Memory) (address : Nat) : Width → Nat
  | .byte => (memory address).toNat
  | .half => (memory.load16 address).toNat
  | .word => (memory.load32 address).toNat

end Width

/-- The memory outside the shell after a request. -/
def stored (memory : Memory) : Request → Memory
  | .storeByte addr data => memory.store8 addr.toNat data
  | .storeHalf addr data => memory.store16 addr.toNat data
  | .storeWord addr data => memory.store32 addr.toNat data
  | _ => memory

/-- One to eight hexadecimal digits with small letters. -/
structure HexToken (token : List Byte) : Prop where
  letters : ∀ c ∈ token, ∃ digit < 16, c = letter digit
  nonempty : token ≠ []
  short : token.length ≤ 8

/-- A memory with a number at an address, and unchanged elsewhere. -/
structure Holds (width : Width) (address number : Nat)
    (before after : Memory) : Prop where
  value : width.load after address = number % 2 ^ (8 * width.size)
  others : Memory.AgreeOutside after before address width.size

/-! ## Tokens -/

section Tokens

variable {token : List Byte}

/-- The shell reads the number from any array that holds the token. -/
theorem HexToken.converts {array : List Byte} {size : Nat}
    (isToken : HexToken token) (holds : HoldsString array size token) :
    strConvAhexInt array = .ok (BitVec.ofNat 32 (valueOf 16 token)) := by
  rw [strConvAhexInt_eq holds.terminated, holds.text,
    placeValue_eq isToken.letters]

end Tokens

/-! ## A line through the shell -/

section Lines

variable {data addr args buf : List Byte} {width : Width}

end Lines

/-! ## Rounds -/

end MagicalOs.Apps.WriteCommands
