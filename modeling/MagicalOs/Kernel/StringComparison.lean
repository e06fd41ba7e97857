import MagicalOs.Apps.ShellStrings
import MagicalOs.Kernel.CommonRoutines

/-!
# The order of two strings

The kernel and the shell have their own `str_compare`, and the kernel also has
`strcmp` and `strncmp`, which are meant to work as the library functions do.
All of them tell equal strings from different ones.  The sign of their results
is another matter: a `char` is signed, and the two copies of `str_compare` do
not subtract the NUL of the shorter string.
-/

namespace MagicalOs.Kernel.StringComparison

open MagicalOs.Library.ByteMemory
open MagicalOs.Library.HeldBytes
open MagicalOs.Library.CString
open MagicalOs.Library.StringOrder
open MagicalOs.Kernel.CommonRoutines
open MagicalOs.Apps

/-- Two strings in the memory of the kernel and in two arrays of the shell. -/
structure SameStrings (mem : Memory) (s1 s2 : Nat)
    (src dst left right : List Byte) : Prop where
  kernelLeft : HoldsString mem s1 left
  kernelRight : HoldsString mem s2 right
  srcEnds : Terminated src
  dstEnds : Terminated dst
  shellLeft : text src = left
  shellRight : text dst = right

/-- Every routine returns, and its result has the order of the strings. -/
structure FindOrder (mem : Memory) (s1 s2 n : Nat)
    (src dst left right : List Byte) : Prop where
  kernelCompare : ∃ result,
    (∀ iterations, left.length < iterations → right.length < iterations →
      strCompare mem iterations s1 s2 = some result) ∧
    Orders left right result
  shellCompare : ∃ result,
    ShellStrings.strCompare src dst = .ok result ∧ Orders left right result
  strcmp : ∃ result,
    (∀ iterations, left.length < iterations → right.length < iterations →
      strcmp mem iterations s1 s2 = some result) ∧
    Orders left right result
  strncmp : Orders left right (strncmp mem n s1 s2)

section Compare

variable {mem : Memory} {s1 s2 n : Nat} {src dst left right : List Byte}

/-- A difference of signed characters has the order of one half only. -/
theorem orders_signed_iff (leftHeld : HoldsString mem s1 left)
    (rightHeld : HoldsString mem s2 right) :
    Orders left right (outcome signedDifference left right) ↔
      SameHalf left right := by
  rw [orders_outcome_iff @signedDifference_ne_zero leftHeld.nonzero
    rightHeld.nonzero]
  apply forall_congr'
  intro byte
  apply forall_congr'
  intro other
  apply forall_congr'
  intro first
  apply signed_iff
  exact (of_firstDifference leftHeld.nonzero rightHeld.nonzero first).1

/-- There `str_compare` finds the order, too. -/
theorem orders_shorterFirst (leftHeld : HoldsString mem s1 left)
    (rightHeld : HoldsString mem s2 right) (half : SameHalf left right) :
    Orders left right (outcome shorterFirst left right) := by
  apply (orders_outcome_iff @shorterFirst_ne_zero leftHeld.nonzero
    rightHeld.nonzero).mpr
  intro byte other first
  apply shorterFirst_sign
  · exact (of_firstDifference leftHeld.nonzero rightHeld.nonzero first).1
  · exact half byte other first

/-- The routines agree with the order of the strings if the first two bytes
that differ are both below 0x80 or both not. -/
theorem findOrder_iff (strings : SameStrings mem s1 s2 src dst left right)
    (enough : right.length < n) :
    FindOrder mem s1 s2 n src dst left right ↔ SameHalf left right := by
  have leftHeld := strings.kernelLeft
  have rightHeld := strings.kernelRight
  constructor
  · intro finds
    have orders := finds.strncmp
    rw [strncmp_eq leftHeld rightHeld enough] at orders
    exact (orders_signed_iff leftHeld rightHeld).mp orders
  · intro half
    have shorter := orders_shorterFirst leftHeld rightHeld half
    have signed := (orders_signed_iff leftHeld rightHeld).mpr half
    constructor
    · refine ⟨_, ?_, shorter⟩
      intro iterations leftEnough _
      exact strCompare_eq leftHeld rightHeld leftEnough
    · refine ⟨_, ?_, shorter⟩
      rw [ShellStrings.strCompare_eq strings.srcEnds strings.dstEnds,
        strings.shellLeft, strings.shellRight]
    · refine ⟨_, ?_, signed⟩
      intro iterations _ rightEnough
      exact strcmp_eq leftHeld rightHeld rightEnough
    · rw [strncmp_eq leftHeld rightHeld enough]
      exact signed

/-- A letter and the empty string, which lie next to each other. -/
theorem findOrder_letter_empty :
    let mem : Memory := fun address => if address = 0 then 97#8 else 0#8
    FindOrder mem 0 1 2 [97#8, 0#8] [0#8] [97#8] [] ↔
      SameHalf [97#8] [] := by
  intro mem
  have strings : SameStrings mem 0 1 [97#8, 0#8] [0#8] [97#8] [] :=
    { kernelLeft := holdsString_of_holds (by decide) ⟨rfl, rfl, trivial⟩
      kernelRight := holdsString_of_holds (by decide) ⟨rfl, trivial⟩
      srcEnds := by simp [Terminated]
      dstEnds := by simp [Terminated]
      shellLeft := by decide
      shellRight := by decide }
  exact findOrder_iff strings (by decide)

/-- The empty string is not greater than one that begins with 0x80. -/
theorem not_findOrder_empty_high :
    let mem : Memory := fun address => if address = 1 then 0x80#8 else 0#8
    SameStrings mem 0 1 [0#8] [0x80#8, 0#8] [] [0x80#8] ∧
      ¬FindOrder mem 0 1 2 [0#8] [0x80#8, 0#8] [] [0x80#8] := by
  intro mem
  constructor
  · exact
      { kernelLeft := holdsString_of_holds (by decide) ⟨rfl, trivial⟩
        kernelRight := holdsString_of_holds (by decide) ⟨rfl, rfl, trivial⟩
        srcEnds := by simp [Terminated]
        dstEnds := by simp [Terminated]
        shellLeft := by decide
        shellRight := by decide }
  · intro finds
    have sign := finds.strncmp.sign
    exact absurd sign (by decide)

end Compare

end MagicalOs.Kernel.StringComparison
