import MagicalOs.Library.HeldBytes

/-!
# String lengths and copies in the kernel

`strlen` and `strcpy` have their increments in the conditions of their loops, so
their pointers end up behind the NUL.  The length counts the NUL, and the copy
returns the place behind it; what is copied is right.  Nothing but a NUL ends
the loops, so the iterations of the model are bounded.
-/

namespace MagicalOs.Kernel.StringCopies

open MagicalOs.Library.ByteMemory
open MagicalOs.Library.HeldBytes

/-- The loop of `strlen`: the pointer behind it. -/
def strlenLoop (mem : Memory) : (iterations s : Nat) → Option Nat
  | 0, _ => none
  | iterations + 1, s =>
      if mem s ≠ 0#8 then strlenLoop mem iterations (s + 1) else some (s + 1)

/-- `strlen`. -/
def strlen (mem : Memory) (iterations s : Nat) : Option Nat :=
  (strlenLoop mem iterations s).map (· - s)

/-- `strcpy`: the memory afterwards, and the pointer that is returned. -/
def strcpy : (iterations : Nat) → Memory → (dest src : Nat) →
    Option (Memory × Nat)
  | 0, _, _, _ => none
  | iterations + 1, mem, dest, src =>
      let byte := mem src
      let mem := mem.store8 dest byte
      if byte ≠ 0#8 then strcpy iterations mem (dest + 1) (src + 1)
      else some (mem, dest + 1)

section Strings

variable {mem copied : Memory} {s src dest pointer iterations : Nat}
  {string : List Byte}

/-! ## Lengths -/

theorem strlenLoop_eq (held : HoldsString mem s string)
    (enough : string.length < iterations) :
    strlenLoop mem iterations s = some (s + string.length + 1) := by
  induction string generalizing s iterations with
  | nil =>
      rcases Nat.exists_eq_succ_of_ne_zero (Nat.ne_of_gt enough) with
        ⟨remaining, rfl⟩
      rw [strlenLoop, if_neg (not_not.mpr held.nil)]
      rfl
  | cons byte rest induction =>
      rcases Nat.exists_eq_succ_of_ne_zero
        (Nat.ne_of_gt (Nat.zero_lt_of_lt enough)) with ⟨remaining, rfl⟩
      rcases held.head with ⟨value, nonzero⟩
      rw [strlenLoop, value, if_pos nonzero,
        induction held.tail (Nat.lt_of_succ_lt_succ enough),
        List.length_cons, Nat.add_right_comm s, Nat.add_assoc s]

/-- `strlen` counts the NUL, too. -/
theorem strlen_eq (held : HoldsString mem s string)
    (enough : string.length < iterations) :
    strlen mem iterations s = some (string.length + 1) := by
  rw [strlen, strlenLoop_eq held enough, Option.map_some, Nat.add_assoc,
    Nat.add_sub_cancel_left]

/-- Too few iterations do not find the NUL. -/
theorem strlenLoop_eq_none (held : HoldsString mem s string)
    (few : iterations ≤ string.length) :
    strlenLoop mem iterations s = none := by
  induction string generalizing s iterations with
  | nil =>
      rw [Nat.le_zero.mp few]
      rfl
  | cons byte rest induction =>
      cases iterations with
      | zero => rfl
      | succ iterations =>
          rcases held.head with ⟨value, nonzero⟩
          rw [strlenLoop, value, if_pos nonzero]
          exact induction held.tail (Nat.le_of_succ_le_succ few)

/-- There is no other result. -/
theorem strlen_of_some {length : Nat} (held : HoldsString mem s string)
    (returns : strlen mem iterations s = some length) :
    length = string.length + 1 := by
  rcases Nat.lt_or_ge string.length iterations with enough | few
  · rw [strlen_eq held enough] at returns
    exact (Option.some.inj returns).symm
  · rw [strlen, strlenLoop_eq_none held few] at returns
    cases returns

/-! ## Copies -/

/-- Every result of `strcpy` lies behind its destination. -/
theorem strcpy_pointer
    (returns : strcpy iterations mem dest src = some (copied, pointer)) :
    dest < pointer := by
  induction iterations generalizing mem dest src with
  | zero => cases returns
  | succ iterations induction =>
      rw [strcpy] at returns
      by_cases nonzero : mem src ≠ 0#8
      · rw [if_pos nonzero] at returns
        exact Nat.lt_of_succ_lt (induction returns)
      · rw [if_neg nonzero] at returns
        cases returns
        exact Nat.lt_succ_self dest

/-- No store of a copy reaches a byte of the source that is still to be read. -/
def Readable (dest src : Nat) (string : List Byte) : Prop :=
  dest ≤ src ∨ src + string.length < dest

/-- The string and its NUL are copied. -/
theorem strcpy_eq (held : HoldsString mem src string)
    (readable : Readable dest src string)
    (enough : string.length < iterations) :
    strcpy iterations mem dest src =
      some (mem.storeBytes dest (string ++ [0#8]),
        dest + string.length + 1) := by
  induction string generalizing mem dest src iterations with
  | nil =>
      rcases Nat.exists_eq_succ_of_ne_zero (Nat.ne_of_gt enough) with
        ⟨remaining, rfl⟩
      rw [strcpy, held.nil, if_neg (not_not.mpr rfl)]
      rfl
  | cons byte rest induction =>
      rcases Nat.exists_eq_succ_of_ne_zero
        (Nat.ne_of_gt (Nat.zero_lt_of_lt enough)) with ⟨remaining, rfl⟩
      rcases held.head with ⟨value, nonzero⟩
      rw [Readable, List.length_cons] at readable
      have agree := (Memory.store8_agreeOutside mem dest byte).agreeOn
        (src + 1) (rest.length + 1) (by omega)
      have later : HoldsString (mem.store8 dest byte) (src + 1) rest :=
        held.tail.of_agreeOn (fun address lower upper =>
          (agree address lower upper).symm)
      have behind : Readable (dest + 1) (src + 1) rest := by
        rw [Readable]
        omega
      rw [strcpy, value, if_pos nonzero,
        induction later behind (Nat.lt_of_succ_lt_succ enough),
        List.length_cons, Nat.add_right_comm dest, Nat.add_assoc dest]
      rfl

/-- What has been copied is a C string. -/
theorem copied_string (held : HoldsString mem src string) :
    HoldsString (mem.storeBytes dest (string ++ [0#8])) dest string :=
  holdsString_of_holds held.nonzero (holds_storeBytes ..)

/-- A string and its NUL lie at the destination, and nothing else changes. -/
structure Copied (mem copied : Memory) (dest : Nat)
    (string : List Byte) : Prop where
  bytes : Holds copied dest (string ++ [0#8])
  others : Memory.AgreeOutside copied mem dest (string.length + 1)

theorem copied_storeBytes :
    Copied mem (mem.storeBytes dest (string ++ [0#8])) dest string := by
  constructor
  · exact holds_storeBytes ..
  · have others := Memory.storeBytes_agreeOutside mem dest (string ++ [0#8])
    rw [List.length_append] at others
    exact others

/-! ## What the library functions promise -/

/-- The length of a string, and a copy of it whose address is returned. -/
structure WorkAsLibrary (mem : Memory) (dest src : Nat)
    (string : List Byte) : Prop where
  length : ∃ iterations, strlen mem iterations src = some string.length
  copy : ∃ iterations copied,
    strcpy iterations mem dest src = some (copied, dest) ∧
      Copied mem copied dest string

/-- What the routines do: the length counts the NUL, and the address returned
lies behind it. -/
structure WorkWithNul (mem : Memory) (iterations dest src : Nat)
    (string : List Byte) : Prop where
  length : strlen mem iterations src = some (string.length + 1)
  copy : ∃ copied,
    strcpy iterations mem dest src = some (copied, dest + string.length + 1) ∧
      Copied mem copied dest string ∧
      strlen copied iterations dest = strlen mem iterations src

theorem workWithNul (held : HoldsString mem src string)
    (readable : Readable dest src string)
    (enough : string.length < iterations) :
    WorkWithNul mem iterations dest src string := by
  constructor
  · exact strlen_eq held enough
  · refine ⟨_, strcpy_eq held readable enough, copied_storeBytes, ?_⟩
    rw [strlen_eq (copied_string held) enough, strlen_eq held enough]

/-- No string has its length reported, and no copy its address returned. -/
theorem routines_count_nul (held : HoldsString mem src string) :
    (¬∃ iterations, strlen mem iterations src = some string.length) ∧
      (¬∃ iterations copied,
        strcpy iterations mem dest src = some (copied, dest)) ∧
      ¬WorkAsLibrary mem dest src string ∧
      (Readable dest src string → ∀ iterations, string.length < iterations →
        WorkWithNul mem iterations dest src string) := by
  have lengths : ¬∃ iterations,
      strlen mem iterations src = some string.length := by
    rintro ⟨iterations, returns⟩
    exact Nat.succ_ne_self _ (strlen_of_some held returns).symm
  refine ⟨lengths, ?_, ?_, ?_⟩
  · rintro ⟨iterations, copied, returns⟩
    exact Nat.lt_irrefl _ (strcpy_pointer returns)
  · intro works
    exact lengths works.length
  · intro readable iterations enough
    exact workWithNul held readable enough

theorem routines_count_nul_letter :
    let mem : Memory := fun address => if address = 0 then 97#8 else 0#8
    (¬∃ iterations, strlen mem iterations 0 = some 1) ∧
      (¬∃ iterations copied, strcpy iterations mem 4 0 = some (copied, 4)) ∧
      ¬WorkAsLibrary mem 4 0 [97#8] ∧
      (Readable 4 0 [97#8] → ∀ iterations, 1 < iterations →
        WorkWithNul mem iterations 4 0 [97#8]) := by
  intro mem
  have held : HoldsString mem 0 [97#8] :=
    holdsString_of_holds (by decide) ⟨rfl, rfl, trivial⟩
  exact routines_count_nul held

/-- The length of the empty string is reported as one. -/
theorem empty_counts_nul :
    let mem : Memory := fun _ => 0#8
    HoldsString mem 0 [] ∧ strlen mem 1 0 = some 1 ∧
      ¬WorkAsLibrary mem 4 0 [] := by
  intro mem
  have held : HoldsString mem 0 [] :=
    holdsString_of_holds (by decide) ⟨rfl, trivial⟩
  refine ⟨held, rfl, ?_⟩
  intro works
  rcases works.length with ⟨iterations, returns⟩
  cases strlen_of_some held returns

end Strings

end MagicalOs.Kernel.StringCopies
