import MagicalOs.Library.PortBus
import Mathlib.Data.List.Basic

/-!
# Transcripts

Whatever a device does, a run of its driver is determined by the bytes and
words which the device answers at each port.  A device is given here by these
answers, one stream for each port, and the state of its bus is the transcript:
the list of the operations of the driver, with the answers.  The operations a
program adds to a transcript are found by following its structure.
-/

namespace MagicalOs.Library.Transcripts

open MagicalOs.Library.ByteMemory
open MagicalOs.Library.PortBus

/-! ## Operations and answers -/

/-- An operation of the driver, with the answer of the device. -/
inductive Access where
  | inb (port : Half) (data : Byte)
  | outb (data : Byte) (port : Half)
  | inw (port : Half) (word : Half)
  | outw (word : Half) (port : Half)
  | wait (usec : Nat)
  deriving DecidableEq

/-- The operations so far, the first one in front. -/
abbrev Transcript := List Access

namespace Access

/-- The byte, when it is read from the port. -/
def byteFrom (port : Half) : Access → Option Byte
  | .inb other data => if other = port then some data else none
  | _ => none

/-- The word, when it is read from the port. -/
def wordFrom (port : Half) : Access → Option Half
  | .inw other word => if other = port then some word else none
  | _ => none

/-- The word, when it is sent to the port. -/
def wordTo (port : Half) : Access → Option Half
  | .outw word other => if other = port then some word else none
  | _ => none

end Access

/-- The bytes which were read from the port. -/
def bytesFrom (port : Half) (transcript : Transcript) : List Byte :=
  transcript.filterMap (Access.byteFrom port)

/-- The words which were read from the port. -/
def wordsFrom (port : Half) (transcript : Transcript) : List Half :=
  transcript.filterMap (Access.wordFrom port)

/-- The words which were sent to the port. -/
def wordsTo (port : Half) (transcript : Transcript) : List Half :=
  transcript.filterMap (Access.wordTo port)

/-- The answers of a device at each port. -/
structure Answers where
  bytes : Half → Nat → Byte
  words : Half → Nat → Half

/-- The device gives its answers in turn. -/
def answering (answers : Answers) : Bus Transcript where
  inb port transcript :=
    let data := answers.bytes port (bytesFrom port transcript).length
    (data, transcript ++ [.inb port data])
  outb data port transcript := ((), transcript ++ [.outb data port])
  inw port transcript :=
    let word := answers.words port (wordsFrom port transcript).length
    (word, transcript ++ [.inw port word])
  outw word port transcript := ((), transcript ++ [.outw word port])
  wait usec transcript := ((), transcript ++ [.wait usec])

@[simp]
theorem bytesFrom_append (port : Half) (first second : Transcript) :
    bytesFrom port (first ++ second) =
      bytesFrom port first ++ bytesFrom port second :=
  List.filterMap_append

@[simp]
theorem wordsFrom_append (port : Half) (first second : Transcript) :
    wordsFrom port (first ++ second) =
      wordsFrom port first ++ wordsFrom port second :=
  List.filterMap_append

@[simp]
theorem wordsTo_append (port : Half) (first second : Transcript) :
    wordsTo port (first ++ second) =
      wordsTo port first ++ wordsTo port second :=
  List.filterMap_append

/-! ## The first answer of a kind -/

section FirstWithin

variable {Value : Type} {found : Value → Bool} {stream : Nat → Value}
  {rounds index : Nat}

/-- The index of the first of the next values which is found. -/
def firstWithin (found : Value → Bool) (stream : Nat → Value)
    (rounds : Nat) : Option Nat :=
  (List.range rounds).find? fun index => found (stream index)

/-- The values from an index on. -/
def later (stream : Nat → Value) (start : Nat) : Nat → Value :=
  fun index => stream (start + index)

@[simp]
theorem later_zero (stream : Nat → Value) : later stream 0 = stream :=
  funext fun index => congrArg stream (Nat.zero_add index)

@[simp]
theorem later_later (stream : Nat → Value) (start next : Nat) :
    later (later stream start) next = later stream (start + next) :=
  funext fun index =>
    congrArg stream (Nat.add_assoc start next index).symm

/-- The next values of a stream are its first one and the next ones. -/
theorem map_range_succ {Result : Type} (function : Value → Result)
    (stream : Nat → Value) (start count : Nat) :
    (List.range (count + 1)).map
        (fun index => function (later stream start index)) =
      function (stream start) ::
        (List.range count).map
          (fun index => function (later stream (start + 1) index)) := by
  rw [List.range_succ_eq_map, List.map_cons, List.map_map]
  apply congrArg
  apply List.map_congr_left
  intro index _
  change function (stream (start + (index + 1))) =
    function (stream (start + 1 + index))
  rw [Nat.add_assoc, Nat.add_comm 1 index]

/-- The number of values which are seen until one is found. -/
def seen (rounds : Nat) (first : Option Nat) : Nat :=
  first.elim rounds (· + 1)

@[simp]
theorem seen_some (rounds index : Nat) :
    seen rounds (some index) = index + 1 := rfl

theorem seen_map (rounds : Nat) (first : Option Nat) :
    seen (rounds + 1) (first.map (· + 1)) = seen rounds first + 1 := by
  cases first with
  | none => rfl
  | some index => rfl

theorem firstWithin_zero : firstWithin found stream 0 = none := rfl

theorem firstWithin_succ (rounds : Nat) :
    firstWithin found stream (rounds + 1) =
      if found (stream 0) then
        some 0
      else
        (firstWithin found (later stream 1) rounds).map (· + 1) := by
  rw [firstWithin, List.range_succ_eq_map, List.find?_cons, List.find?_map]
  cases found (stream 0) with
  | true => rfl
  | false =>
      have shifted :
          (fun index => found (stream index)) ∘ Nat.succ =
            fun index => found (later stream 1 index) :=
        funext fun index =>
          congrArg (fun next => found (stream next)) (Nat.add_comm index 1)
      rw [shifted]
      rfl

theorem firstWithin_eq_none_iff :
    firstWithin found stream rounds = none ↔
      ∀ index < rounds, found (stream index) = false := by
  rw [firstWithin, List.find?_eq_none]
  constructor
  · intro missed index below
    exact Bool.not_eq_true _ ▸ missed index (List.mem_range.mpr below)
  · intro missed index member
    rw [missed index (List.mem_range.mp member)]
    exact Bool.false_ne_true

theorem firstWithin_eq_some_iff :
    firstWithin found stream rounds = some index ↔
      index < rounds ∧ found (stream index) = true ∧
        ∀ before < index, found (stream before) = false := by
  induction rounds generalizing stream index with
  | zero => simp [firstWithin_zero]
  | succ rounds induction =>
      rw [firstWithin_succ]
      cases here : found (stream 0) with
      | true =>
          simp only [if_true, Option.some.injEq]
          constructor
          · rintro rfl
            exact ⟨Nat.succ_pos rounds, here, fun _ impossible =>
              absurd impossible (Nat.not_lt_zero _)⟩
          · rintro ⟨_, _, first⟩
            by_contra other
            have earlier := first 0 (Nat.pos_of_ne_zero (Ne.symm other))
            rw [here] at earlier
            cases earlier
      | false =>
          simp only [Bool.false_eq_true, if_false, Option.map_eq_some_iff,
            induction]
          constructor
          · rintro ⟨previous, ⟨inRange, now, first⟩, rfl⟩
            rw [later, Nat.add_comm] at now
            refine ⟨Nat.succ_lt_succ inRange, now, ?_⟩
            intro before below
            cases before with
            | zero => exact here
            | succ before =>
                have miss := first before (Nat.lt_of_succ_lt_succ below)
                rwa [later, Nat.add_comm] at miss
          · rintro ⟨inRange, now, first⟩
            cases index with
            | zero =>
                rw [here] at now
                cases now
            | succ index =>
                refine ⟨index, ⟨Nat.lt_of_succ_lt_succ inRange, ?_, ?_⟩, rfl⟩
                · rw [later, Nat.add_comm]
                  exact now
                · intro before below
                  rw [later, Nat.add_comm]
                  exact first (before + 1) (Nat.succ_lt_succ below)

theorem firstWithin_mono {more : Nat} (enough : rounds ≤ more)
    (first : firstWithin found stream rounds = some index) :
    firstWithin found stream more = some index := by
  rw [firstWithin_eq_some_iff] at first ⊢
  exact ⟨Nat.lt_of_lt_of_le first.1 enough, first.2⟩

end FirstWithin

/-! ## What a program adds -/

section Adds

variable {Value Result : Type} {program : StateM Transcript Value}
  {before added more : Transcript} {value : Value} {result : Result}
  {answers : Answers}

/-- Behind `before`, the program returns the value and adds operations. -/
def Adds (program : StateM Transcript Value) (before : Transcript)
    (value : Value) (added : Transcript) : Prop :=
  program.run before = (value, before ++ added)

theorem Adds.pure : Adds (Pure.pure value) before value [] :=
  congrArg (Prod.mk value) (List.append_nil before).symm

theorem Adds.bind {next : Value → StateM Transcript Result}
    (first : Adds program before value added)
    (second : Adds (next value) (before ++ added) result more) :
    Adds (program >>= next) before result (added ++ more) := by
  rw [Adds] at first second
  rw [Adds, StateT.run_bind, first, ← List.append_assoc]
  exact second

theorem Adds.map (function : Value → Result)
    (adds : Adds program before value added) :
    Adds (function <$> program) before (function value) added := by
  rw [Adds] at adds
  rw [Adds, StateT.run_map, adds]
  rfl

theorem Adds.iteTrue {condition : Prop} [Decidable condition]
    {other : StateM Transcript Value} (holds : condition)
    (adds : Adds program before value added) :
    Adds (if condition then program else other) before value added := by
  rw [if_pos holds]
  exact adds

theorem Adds.iteFalse {condition : Prop} [Decidable condition]
    {other : StateM Transcript Value} (fails : ¬condition)
    (adds : Adds program before value added) :
    Adds (if condition then other else program) before value added := by
  rw [if_neg fails]
  exact adds

theorem Adds.inb (port : Half) :
    Adds ((answering answers).inb port) before
      (answers.bytes port (bytesFrom port before).length)
      [.inb port (answers.bytes port (bytesFrom port before).length)] :=
  rfl

/-- The next byte of a port is read. -/
theorem Adds.next {port : Half} {start : Nat}
    (position : (bytesFrom port before).length = start) :
    Adds ((answering answers).inb port) before (answers.bytes port start)
      [.inb port (answers.bytes port start)] :=
  position ▸ .inb port

theorem length_bytesFrom_snoc {port : Half} {start : Nat}
    (position : (bytesFrom port before).length = start) (data : Byte) :
    (bytesFrom port (before ++ [.inb port data])).length = start + 1 := by
  simp [bytesFrom, Access.byteFrom, ← position]

theorem Adds.outb (data : Byte) (port : Half) :
    Adds ((answering answers).outb data port) before () [.outb data port] :=
  rfl

theorem Adds.inw (port : Half) :
    Adds ((answering answers).inw port) before
      (answers.words port (wordsFrom port before).length)
      [.inw port (answers.words port (wordsFrom port before).length)] :=
  rfl

theorem Adds.outw (word port : Half) :
    Adds ((answering answers).outw word port) before () [.outw word port] :=
  rfl

theorem Adds.wait (usec : Nat) :
    Adds ((answering answers).wait usec) before () [.wait usec] :=
  rfl

/-- A run has one value and one transcript. -/
theorem Adds.unique {other : Value} (adds : Adds program before value added)
    (addsToo : Adds program before other more) :
    value = other ∧ added = more := by
  rw [Adds] at adds addsToo
  rcases Prod.mk.inj (adds.symm.trans addsToo) with ⟨same, whole⟩
  exact ⟨same, List.append_cancel_left whole⟩

end Adds

/-! ## Counting reads -/

section Counts

variable {Value : Type} {program : StateM Transcript Value} {port : Half}
  {before added : Transcript} {value : Value}

/-- Behind `before`, the program returns the value and reads a port so often. -/
def Counts (port : Half) (program : StateM Transcript Value)
    (before : Transcript) (value : Value) (count : Nat) : Prop :=
  ∃ added, Adds program before value added ∧
    (bytesFrom port added).length = count

theorem Counts.ofUnread (adds : Adds program before value added)
    (unread : bytesFrom port added = []) :
    Counts port program before value 0 :=
  ⟨added, adds, congrArg List.length unread⟩

end Counts

/-! ## Bounding reads -/

section Bounds

variable {Value Result : Type} {program other : StateM Transcript Value}
  {allowed : Access → Prop} {limit more total : Nat} {answers : Answers}

/-- The operation reads a port. -/
def Access.isRead : Access → Bool
  | .inb _ _ => true
  | .inw _ _ => true
  | _ => false

def portReads (transcript : Transcript) : Nat :=
  transcript.countP Access.isRead

/--
Whatever has come before, the program returns; its operations are allowed, and
so many of them read a port at most.
-/
def Within (allowed : Access → Prop) (limit : Nat)
    (program : StateM Transcript Value) : Prop :=
  ∀ before, ∃ value added, Adds program before value added ∧
    (∀ access ∈ added, allowed access) ∧ portReads added ≤ limit

namespace Within

theorem pure {value : Value} :
    Within allowed limit (Pure.pure value : StateM Transcript Value) := by
  intro before
  refine ⟨value, [], .pure, ?_, Nat.zero_le limit⟩
  intro access impossible
  cases impossible

/-- Nothing is done any more. -/
theorem done {value : Value} :
    Within allowed 0 (Pure.pure value : StateM Transcript Value) :=
  pure

theorem bind {next : Value → StateM Transcript Result}
    (first : Within allowed limit program)
    (second : ∀ value, Within allowed more (next value))
    (enough : limit + more ≤ total) :
    Within allowed total (program >>= next) := by
  intro before
  rcases first before with ⟨value, added, adds, inSet, few⟩
  rcases second value (before ++ added) with
    ⟨result, rest, addsRest, restInSet, restFew⟩
  refine ⟨result, added ++ rest, adds.bind addsRest, ?_, ?_⟩
  · intro access member
    rcases List.mem_append.mp member with early | late
    · exact inSet access early
    · exact restInSet access late
  · rw [portReads, List.countP_append]
    exact Nat.le_trans (Nat.add_le_add few restFew) enough

theorem map (function : Value → Result)
    (within : Within allowed limit program) :
    Within allowed limit (function <$> program) := by
  intro before
  rcases within before with ⟨value, added, adds, inSet, few⟩
  exact ⟨function value, added, adds.map function, inSet, few⟩

/-- A program which reads nothing goes first. -/
theorem seq {next : Value → StateM Transcript Result}
    (first : Within allowed 0 program)
    (second : ∀ value, Within allowed more (next value)) :
    Within allowed more (program >>= next) :=
  first.bind second (Nat.le_of_eq (Nat.zero_add more))

/-- A program which reads once goes first. -/
theorem read {next : Value → StateM Transcript Result}
    (first : Within allowed 1 program)
    (second : ∀ value, Within allowed more (next value)) :
    Within allowed (more + 1) (program >>= next) :=
  first.bind second (Nat.le_of_eq (Nat.add_comm 1 more))

theorem ite {condition : Prop} [Decidable condition]
    (whenTrue : Within allowed limit program)
    (whenFalse : Within allowed limit other) :
    Within allowed limit (if condition then program else other) := by
  split
  · exact whenTrue
  · exact whenFalse

theorem ofSingle {result : Transcript → Value} {access : Transcript → Access}
    (adds : ∀ before, Adds program before (result before) [access before])
    (isAllowed : ∀ before, allowed (access before))
    (few : ∀ before, portReads [access before] ≤ limit) :
    Within allowed limit program := by
  intro before
  refine ⟨result before, [access before], adds before, ?_, few before⟩
  intro other member
  rw [List.mem_singleton.mp member]
  exact isAllowed before

theorem inb {port : Half} (isAllowed : ∀ data, allowed (.inb port data)) :
    Within allowed 1 ((answering answers).inb port) :=
  ofSingle (fun _ => .inb port) (fun _ => isAllowed _)
    (fun _ => Nat.le_refl 1)

theorem inw {port : Half} (isAllowed : ∀ word, allowed (.inw port word)) :
    Within allowed 1 ((answering answers).inw port) :=
  ofSingle (fun _ => .inw port) (fun _ => isAllowed _)
    (fun _ => Nat.le_refl 1)

theorem outb {data : Byte} {port : Half}
    (isAllowed : allowed (.outb data port)) :
    Within allowed 0 ((answering answers).outb data port) :=
  ofSingle (fun _ => .outb data port) (fun _ => isAllowed)
    (fun _ => Nat.le_refl 0)

theorem outw {word port : Half} (isAllowed : allowed (.outw word port)) :
    Within allowed 0 ((answering answers).outw word port) :=
  ofSingle (fun _ => .outw word port) (fun _ => isAllowed)
    (fun _ => Nat.le_refl 0)

theorem wait {usec : Nat} (isAllowed : allowed (.wait usec)) :
    Within allowed 0 ((answering answers).wait usec) :=
  ofSingle (fun _ => .wait usec) (fun _ => isAllowed)
    (fun _ => Nat.le_refl 0)

end Within

end Bounds

/-! ## Programs with a larger bound -/

section Continues

variable {State Value Result : Type} {program other : StateM State Value}
  {good : Value → Prop} {right : Result → Prop}

/-- Where the program returns a good value, the other one runs as it does. -/
def Continues (good : Value → Prop) (program other : StateM State Value) :
    Prop :=
  ∀ before, good (program.run before).1 →
    other.run before = program.run before

namespace Continues

theorem refl : Continues good program program := fun _ _ => rfl

/-- Only a good value of the first program leads to a good result. -/
theorem bind {next otherNext : Value → StateM State Result}
    (first : Continues good program other)
    (second : ∀ value, Continues right (next value) (otherNext value))
    (needed : ∀ value, ¬good value → ∀ before,
      ¬right ((next value).run before).1) :
    Continues right (program >>= next) (other >>= otherNext) := by
  intro before isRight
  rw [StateT.run_bind] at isRight
  have isGood : good (program.run before).1 := by
    by_contra bad
    exact needed _ bad _ isRight
  rw [StateT.run_bind, StateT.run_bind, first before isGood]
  exact second _ _ isRight

theorem map {function : Value → Result}
    (first : Continues good program other)
    (needed : ∀ value, ¬good value → ¬right (function value)) :
    Continues right (function <$> program) (function <$> other) := by
  rw [map_eq_pure_bind, map_eq_pure_bind]
  apply first.bind
  · intro value
    exact refl
  · intro value bad before
    exact needed value bad

/-- The programs differ behind their first operation. -/
theorem last {next otherNext : Value → StateM State Result}
    (second : ∀ value, Continues right (next value) (otherNext value)) :
    Continues right (program >>= next) (program >>= otherNext) := by
  intro before isRight
  rw [StateT.run_bind] at isRight
  rw [StateT.run_bind, StateT.run_bind]
  exact second _ _ isRight

theorem ite {condition : Prop} [Decidable condition]
    {more otherMore : StateM State Value}
    (whenTrue : Continues good program other)
    (whenFalse : Continues good more otherMore) :
    Continues good (if condition then program else more)
      (if condition then other else otherMore) := by
  split
  · exact whenTrue
  · exact whenFalse

end Continues

end Continues

/-! ## Reading on and on -/

section Reads

variable {answers : Answers} {port : Half} {start count : Nat}

/-- The next bytes of a port are read. -/
def Answers.reads (answers : Answers) (port : Half) (start count : Nat) :
    Transcript :=
  (List.range count).map fun index =>
    .inb port (answers.bytes port (start + index))

/-- The next words of a port are read. -/
def Answers.wordReads (answers : Answers) (port : Half) (start count : Nat) :
    Transcript :=
  (List.range count).map fun index =>
    .inw port (answers.words port (start + index))

theorem reads_succ :
    answers.reads port start (count + 1) =
      .inb port (answers.bytes port start) ::
        answers.reads port (start + 1) count :=
  map_range_succ (Access.inb port) (answers.bytes port) start count

theorem wordReads_succ :
    answers.wordReads port start (count + 1) =
      .inw port (answers.words port start) ::
        answers.wordReads port (start + 1) count :=
  map_range_succ (Access.inw port) (answers.words port) start count

/-- One more read comes behind the others. -/
theorem reads_snoc :
    answers.reads port start (count + 1) =
      answers.reads port start count ++
        [.inb port (answers.bytes port (start + count))] := by
  rw [Answers.reads, List.range_succ, List.map_append]
  rfl

/-- What is read are the next bytes of the stream. -/
theorem bytesFrom_reads_eq :
    bytesFrom port (answers.reads port start count) =
      (List.range count).map (later (answers.bytes port) start) := by
  rw [bytesFrom, Answers.reads, List.filterMap_map, ← List.filterMap_eq_map]
  apply congrArg (fun read => (List.range count).filterMap read)
  funext index
  exact if_pos rfl

@[simp]
theorem bytesFrom_reads :
    (bytesFrom port (answers.reads port start count)).length = count := by
  rw [bytesFrom_reads_eq, List.length_map, List.length_range]

@[simp]
theorem wordsFrom_reads (other : Half) :
    wordsFrom other (answers.reads port start count) = [] := by
  simp [wordsFrom, Answers.reads, List.filterMap_map, Access.wordFrom,
    Function.comp_def]

/-- What is stored are the next words of the stream. -/
theorem wordsFrom_wordReads_eq :
    wordsFrom port (answers.wordReads port start count) =
      (List.range count).map (later (answers.words port) start) := by
  rw [wordsFrom, Answers.wordReads, List.filterMap_map,
    ← List.filterMap_eq_map]
  apply congrArg (fun read => (List.range count).filterMap read)
  funext index
  exact if_pos rfl

@[simp]
theorem bytesFrom_wordReads (other : Half) :
    bytesFrom other (answers.wordReads port start count) = [] := by
  simp [bytesFrom, Answers.wordReads, List.filterMap_map, Access.byteFrom,
    Function.comp_def]

end Reads

/-! ## Every device answers in turn -/

section Replay

variable {State Value Result : Type} {answers : Answers}
  {before added more : Transcript}

/-- The answers are those of the operation, behind `before`. -/
def Answered (answers : Answers) (before : Transcript) : Access → Prop
  | .inb port data =>
      answers.bytes port (bytesFrom port before).length = data
  | .inw port word =>
      answers.words port (wordsFrom port before).length = word
  | _ => True

/-- The answers are those of all the operations which are added. -/
def Agrees (answers : Answers) (before : Transcript) : Transcript → Prop
  | [] => True
  | access :: rest =>
      Answered answers before access ∧
        Agrees answers (before ++ [access]) rest

theorem agrees_append :
    Agrees answers before (added ++ more) ↔
      Agrees answers before added ∧
        Agrees answers (before ++ added) more := by
  induction added generalizing before with
  | nil => simp [Agrees]
  | cons access rest induction =>
      rw [List.cons_append, Agrees, Agrees, induction, and_assoc,
        List.append_assoc, List.singleton_append]

/-- The answers which a transcript shows. -/
def answersOf (transcript : Transcript) : Answers where
  bytes port index := (bytesFrom port transcript).getD index 0#8
  words port index := (wordsFrom port transcript).getD index 0#16

theorem agrees_answersOf (transcript : Transcript) :
    Agrees (answersOf transcript) [] transcript := by
  suffices general : ∀ before added, before ++ added = transcript →
      Agrees (answersOf transcript) before added from
    general [] transcript rfl
  intro before added whole
  induction added generalizing before with
  | nil => trivial
  | cons access rest induction =>
      refine ⟨?_, induction _ (by rw [List.append_assoc]; exact whole)⟩
      rw [← whole]
      cases access with
      | inb port data =>
          have read : bytesFrom port (.inb port data :: rest) =
              data :: bytesFrom port rest :=
            List.filterMap_cons_some (if_pos rfl)
          change (bytesFrom port (before ++ .inb port data :: rest)).getD
            (bytesFrom port before).length 0#8 = data
          rw [bytesFrom_append, read]
          simp
      | inw port word =>
          have read : wordsFrom port (.inw port word :: rest) =
              word :: wordsFrom port rest :=
            List.filterMap_cons_some (if_pos rfl)
          change (wordsFrom port (before ++ .inw port word :: rest)).getD
            (wordsFrom port before).length 0#16 = word
          rw [wordsFrom_append, read]
          simp
      | outb => trivial
      | outw => trivial
      | wait => trivial

/--
Whatever the real device does, the program returns the same value with a
device which gives the same answers in turn.
-/
def Replays (real : StateM State Value)
    (replay : Answers → StateM Transcript Value) : Prop :=
  ∀ state before, ∃ added, ∀ answers, Agrees answers before added →
    Adds (replay answers) before (real.run state).1 added

namespace Replays

variable {real other : StateM State Value}
  {replay another : Answers → StateM Transcript Value}

/-- For every state of the real device there are such answers. -/
theorem exists_answers (replays : Replays real replay) (state : State) :
    ∃ answers, ((replay answers).run []).1 = (real.run state).1 := by
  rcases replays state [] with ⟨added, adds⟩
  have same := adds (answersOf added) (agrees_answersOf added)
  exact ⟨answersOf added, congrArg Prod.fst same⟩

theorem pure (value : Value) :
    Replays (Pure.pure value : StateM State Value)
      fun _ => Pure.pure value :=
  fun _ _ => ⟨[], fun _ _ => .pure⟩

theorem bind {next : Value → StateM State Result}
    {nextReplay : Answers → Value → StateM Transcript Result}
    (first : Replays real replay)
    (second : ∀ value, Replays (next value) fun answers =>
      nextReplay answers value) :
    Replays (real >>= next) fun answers =>
      replay answers >>= nextReplay answers := by
  intro state before
  rcases first state before with ⟨added, adds⟩
  rcases second (real.run state).1 (real.run state).2 (before ++ added)
    with ⟨more, addsMore⟩
  refine ⟨added ++ more, ?_⟩
  intro answers agrees
  rw [agrees_append] at agrees
  exact (adds answers agrees.1).bind (addsMore answers agrees.2)

theorem ite {condition : Prop} [Decidable condition]
    (whenTrue : Replays real replay) (whenFalse : Replays other another) :
    Replays (if condition then real else other) fun answers =>
      if condition then replay answers else another answers := by
  by_cases holds : condition
  · simp only [if_pos holds]
    exact whenTrue
  · simp only [if_neg holds]
    exact whenFalse

variable (bus : Bus State)

theorem inb (port : Half) :
    Replays (bus.inb port) fun answers => (answering answers).inb port := by
  intro state before
  refine ⟨[.inb port ((bus.inb port).run state).1], ?_⟩
  rintro answers ⟨answered, _⟩
  rw [Answered] at answered
  rw [← answered]
  exact .inb port

theorem inw (port : Half) :
    Replays (bus.inw port) fun answers => (answering answers).inw port := by
  intro state before
  refine ⟨[.inw port ((bus.inw port).run state).1], ?_⟩
  rintro answers ⟨answered, _⟩
  rw [Answered] at answered
  rw [← answered]
  exact .inw port

theorem outb (data : Byte) (port : Half) :
    Replays (bus.outb data port) fun answers =>
      (answering answers).outb data port :=
  fun _ _ => ⟨[.outb data port], fun _ _ => .outb data port⟩

theorem outw (word port : Half) :
    Replays (bus.outw word port) fun answers =>
      (answering answers).outw word port :=
  fun _ _ => ⟨[.outw word port], fun _ _ => .outw word port⟩

theorem wait (usec : Nat) :
    Replays (bus.wait usec) fun answers => (answering answers).wait usec :=
  fun _ _ => ⟨[.wait usec], fun _ _ => .wait usec⟩

end Replays

end Replay

end MagicalOs.Library.Transcripts
