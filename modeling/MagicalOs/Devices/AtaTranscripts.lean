import MagicalOs.Devices.Ata
import MagicalOs.Library.Transcripts

/-!
# What the driver does to any device

The transcripts of the functions of the driver, for a device of which only the
answers are given.  Selecting a device and waiting for it give no command, read
no status register and transfer no data; what they return depends on the
alternate status only, and what `sector_rw_common` makes of a command on the
first status in which ERR or DRQ is set.
-/

namespace MagicalOs.Devices.AtaTranscripts

open MagicalOs.Library.ByteMemory
open MagicalOs.Library.PortBus
open MagicalOs.Library.Transcripts
open MagicalOs.Devices.Ata

/-! ## What the answers decide -/

/-- Neither BSY nor DRQ is set. -/
def quiet (data : Byte) : Bool := !bsy data && !drq data

/-- The poll behind a command ends. -/
def decides (data : Byte) : Bool := isError data || isDrqActive data

/-- BSY = 0, DRQ = 1 and ERR = 0. -/
structure AsksForData (data : Byte) : Prop where
  free : bsy data = false
  asks : isDrqActive data = true
  noError : isError data = false

/--
Whether two polls of the alternate status both find a quiet one, and how many
statuses they read.
-/
def quietTwice (rounds : Nat) (alternate : Nat → Byte) : Bool × Nat :=
  match firstWithin quiet alternate rounds with
  | none => (false, rounds)
  | some first =>
      match firstWithin quiet (later alternate (first + 1)) rounds with
      | none => (false, first + 1 + rounds)
      | some second => (true, first + 1 + (second + 1))

/-- Whether the selection protocol succeeds, and what it reads. -/
def selection : (alternate : Nat → Byte) → Bool × Nat :=
  quietTwice 1000

theorem quietTwice_of_none {rounds : Nat} {alternate : Nat → Byte}
    (missed : firstWithin quiet alternate rounds = none) :
    quietTwice rounds alternate = (false, seen rounds none) := by
  rw [quietTwice, missed]
  rfl

theorem quietTwice_of_some {rounds first : Nat} {alternate : Nat → Byte}
    (found : firstWithin quiet alternate rounds = some first) :
    quietTwice rounds alternate =
      ((firstWithin quiet (later alternate (first + 1)) rounds).isSome,
        seen rounds (some first) +
          seen rounds
            (firstWithin quiet (later alternate (first + 1)) rounds)) := by
  rw [quietTwice, found]
  cases next : firstWithin quiet (later alternate (first + 1)) rounds with
  | none => simp [next, seen]
  | some second => simp [next]

/-- Whether one of the attempts to select succeeds, and what they read. -/
def readiness : (attempts : Nat) → (alternate : Nat → Byte) → Bool × Nat
  | 0, _ => (false, 0)
  | attempts + 1, alternate =>
      if (selection alternate).1 then
        selection alternate
      else
        let rest :=
          readiness attempts (later alternate (selection alternate).2)
        (rest.1, (selection alternate).2 + rest.2)

/-- The device becomes ready for a command in time. -/
def becomesReady (alternate : Nat → Byte) : Bool :=
  (readiness 5 alternate).1

/-- A device that is always quiet is selected at once. -/
theorem selection_of_quiet {alternate : Nat → Byte}
    (always : ∀ index, quiet (alternate index) = true) :
    (selection alternate).1 = true := by
  rw [selection]
  have found (stream : Nat → Byte) (here : quiet (stream 0) = true) :
      firstWithin quiet stream 1000 = some 0 :=
    firstWithin_eq_some_iff.mpr
      ⟨by decide, here, fun _ impossible =>
        absurd impossible (Nat.not_lt_zero _)⟩
  rw [quietTwice_of_some (found alternate (always 0)),
    found (later alternate (0 + 1)) (always _)]
  rfl

theorem becomesReady_of_quiet {alternate : Nat → Byte}
    (always : ∀ index, quiet (alternate index) = true) :
    becomesReady alternate = true := by
  have selected := selection_of_quiet always
  rw [becomesReady, readiness, if_pos selected]
  exact selected

/-- How the poll behind a command ends: with data being asked for, or not. -/
def pollAnswer (reads : Nat) (status : Nat → Byte) : Option Bool :=
  (firstWithin decides status reads).map fun index => !isError (status index)

/-- Whether `sector_rw_common` goes on behind its poll. -/
def asksWithin (reads : Nat) (status : Nat → Byte) : Bool :=
  (pollAnswer reads status).getD false

theorem pollAnswer_succ (reads : Nat) (status : Nat → Byte) :
    pollAnswer (reads + 1) status =
      if decides (status 0) then
        some (!isError (status 0))
      else
        pollAnswer reads (later status 1) := by
  rw [pollAnswer, firstWithin_succ]
  cases decides (status 0) with
  | true => rfl
  | false =>
      rw [if_neg Bool.false_ne_true, if_neg Bool.false_ne_true, pollAnswer]
      cases firstWithin decides (later status 1) reads with
      | none => rfl
      | some index =>
          change some (!isError (status (index + 1))) =
            some (!isError (status (1 + index)))
          rw [Nat.add_comm]

/-! ## Operations beside the commands -/

/-- The operation is no command, no status read and no transfer. -/
def aside : Access → Bool
  | .inb port _ => port ≠ statusRegister
  | .outb _ port => port ≠ commandRegister
  | .inw _ _ => false
  | .outw _ _ => false
  | .wait _ => true

theorem bytesFrom_status_of_aside {added : Transcript}
    (quietly : ∀ access ∈ added, aside access = true) :
    bytesFrom statusRegister added = [] := by
  apply List.filterMap_eq_nil_iff.mpr
  intro access member
  have noStatus := quietly access member
  cases access with
  | inb port data =>
      rw [aside, decide_eq_true_eq] at noStatus
      exact if_neg noStatus
  | outb data port => rfl
  | inw port word => rfl
  | outw word port => rfl
  | wait usec => rfl

theorem wordsFrom_of_aside (port : Half) {added : Transcript}
    (quietly : ∀ access ∈ added, aside access = true) :
    wordsFrom port added = [] := by
  apply List.filterMap_eq_nil_iff.mpr
  intro access member
  have noTransfer := quietly access member
  cases access with
  | inb => rfl
  | outb => rfl
  | inw => cases noTransfer
  | outw => rfl
  | wait => rfl

/--
Behind `before`, the program returns the value; it adds such operations only,
and reads the alternate status as often as given.
-/
def RunsAside {Value : Type} (program : StateM Transcript Value)
    (before : Transcript) (value : Value) (alternate : Nat) : Prop :=
  ∃ added, Adds program before value added ∧
    (bytesFrom alternateStatusRegister added).length = alternate ∧
    ∀ access ∈ added, aside access = true

namespace RunsAside

variable {Value Result : Type} {program other : StateM Transcript Value}
  {before : Transcript} {value : Value} {result : Result}
  {first second : Nat} {answers : Answers}

theorem pure : RunsAside (Pure.pure value) before value 0 :=
  ⟨[], .pure, rfl, fun _ impossible => nomatch impossible⟩

theorem bind {next : Value → StateM Transcript Result}
    (head : RunsAside program before value first)
    (tail : ∀ added,
      (bytesFrom alternateStatusRegister added).length = first →
        RunsAside (next value) (before ++ added) result second) :
    RunsAside (program >>= next) before result (first + second) := by
  rcases head with ⟨added, adds, read, quietly⟩
  rcases tail added read with ⟨more, addsMore, readMore, quietlyMore⟩
  refine ⟨added ++ more, adds.bind addsMore, ?_, ?_⟩
  · rw [bytesFrom_append, List.length_append, read, readMore]
  · intro access member
    rcases List.mem_append.mp member with early | late
    · exact quietly access early
    · exact quietlyMore access late

/-- A program which does not read the alternate status goes first. -/
theorem seq {next : Value → StateM Transcript Result}
    (head : RunsAside program before value 0)
    (tail : ∀ added, (bytesFrom alternateStatusRegister added).length = 0 →
      RunsAside (next value) (before ++ added) result second) :
    RunsAside (program >>= next) before result second :=
  Nat.zero_add second ▸ head.bind tail

/-- A program which does not read the alternate status goes last. -/
theorem last {next : Value → StateM Transcript Result}
    (head : RunsAside program before value first)
    (tail : ∀ added, RunsAside (next value) (before ++ added) result 0) :
    RunsAside (program >>= next) before result first :=
  head.bind fun added _ => tail added

theorem iteTrue {condition : Prop} [Decidable condition] (holds : condition)
    (runs : RunsAside program before value first) :
    RunsAside (if condition then program else other) before value first := by
  rw [if_pos holds]
  exact runs

theorem iteFalse {condition : Prop} [Decidable condition]
    (fails : ¬condition) (runs : RunsAside program before value first) :
    RunsAside (if condition then other else program) before value first := by
  rw [if_neg fails]
  exact runs

theorem ofSingle {access : Access} (adds : Adds program before value [access])
    (noAlternate : access.byteFrom alternateStatusRegister = none)
    (quietly : aside access = true) : RunsAside program before value 0 := by
  refine ⟨[access], adds, ?_, ?_⟩
  · rw [bytesFrom, List.filterMap_cons_none noAlternate]
    rfl
  · intro other member
    rw [List.mem_singleton.mp member]
    exact quietly

theorem inb {port : Half} (noStatus : port ≠ statusRegister)
    (noAlternate : port ≠ alternateStatusRegister) :
    RunsAside ((answering answers).inb port) before
      (answers.bytes port (bytesFrom port before).length) 0 :=
  ofSingle (.inb port) (if_neg noAlternate) (decide_eq_true noStatus)

theorem outb {port : Half} (data : Byte) (noCommand : port ≠ commandRegister) :
    RunsAside ((answering answers).outb data port) before () 0 :=
  ofSingle (.outb data port) rfl (decide_eq_true noCommand)

theorem wait (usec : Nat) :
    RunsAside ((answering answers).wait usec) before () 0 :=
  ofSingle (.wait usec) rfl rfl

end RunsAside

section Driver

variable (answers : Answers)

/-! ## Selecting a device -/

/-- A poll reads the port until a status is found. -/
theorem pollLoop_adds (done : Byte → Bool) (port : Half) (rounds : Nat)
    {before : Transcript} {start : Nat}
    (position : (bytesFrom port before).length = start) :
    Adds (pollLoop (answering answers) done port rounds) before
      (firstWithin done (later (answers.bytes port) start) rounds).isSome
      (answers.reads port start
        (seen rounds
          (firstWithin done (later (answers.bytes port) start) rounds))) := by
  induction rounds generalizing before start with
  | zero => exact .pure
  | succ rounds induction =>
      have read := @Adds.next before answers port start position
      have next := length_bytesFrom_snoc position (answers.bytes port start)
      rw [firstWithin_succ, later_later]
      cases found : done (later (answers.bytes port) start 0) with
      | true => exact read.bind (.iteTrue found .pure)
      | false =>
          rw [if_neg Bool.false_ne_true, Option.isSome_map, seen_map,
            reads_succ]
          have missed : ¬done (answers.bytes port start) = true :=
            Bool.not_eq_true _ ▸ found
          exact read.bind (.iteFalse missed (induction next))

/-- A poll of the alternate status reads nothing else. -/
theorem pollLoop_runsAside (done : Byte → Bool) (rounds : Nat)
    {before : Transcript} {start : Nat}
    (position : (bytesFrom alternateStatusRegister before).length = start) :
    RunsAside
      (pollLoop (answering answers) done alternateStatusRegister rounds)
      before
      (firstWithin done (later (answers.bytes alternateStatusRegister) start)
        rounds).isSome
      (seen rounds (firstWithin done
        (later (answers.bytes alternateStatusRegister) start) rounds)) := by
  refine ⟨_, pollLoop_adds answers done alternateStatusRegister rounds
    position, bytesFrom_reads, ?_⟩
  intro access member
  rcases List.mem_map.mp member with ⟨index, _, rfl⟩
  rfl

theorem setDeviceNumber_runsAside (device : Int) (before : Transcript) :
    RunsAside (setDeviceNumber (answering answers) device) before () 0 := by
  have noStatus : deviceHeadRegister ≠ statusRegister := by decide
  have noAlternate : deviceHeadRegister ≠ alternateStatusRegister := by decide
  have noCommand : deviceHeadRegister ≠ commandRegister := by decide
  unfold setDeviceNumber
  apply RunsAside.seq (.inb noStatus noAlternate)
  intro _ _
  apply RunsAside.seq (.outb _ noCommand)
  intro _ _
  exact .wait 5

/-- What the protocol returns depends on the alternate status only. -/
theorem doDeviceSelectionProtocol_runsAside (device : Int)
    {before : Transcript} {start : Nat}
    (position : (bytesFrom alternateStatusRegister before).length = start) :
    RunsAside (doDeviceSelectionProtocol (answering answers) device) before
      (selection (later (answers.bytes alternateStatusRegister) start)).1
      (selection
        (later (answers.bytes alternateStatusRegister) start)).2 := by
  unfold doDeviceSelectionProtocol selection waitUntilBsyAndDrqAreZero
  generalize 1000 = rounds
  have polled := pollLoop_runsAside answers quiet rounds position
  cases found : firstWithin quiet
      (later (answers.bytes alternateStatusRegister) start) rounds with
  | none =>
      rw [found] at polled
      rw [quietTwice_of_none found]
      apply polled.last
      intro _
      exact .iteFalse Bool.false_ne_true .pure
  | some index =>
      rw [found] at polled
      rw [quietTwice_of_some found, later_later]
      apply polled.bind
      intro added read
      apply RunsAside.iteTrue rfl
      apply RunsAside.seq (setDeviceNumber_runsAside answers device _)
      intro selected unread
      apply RunsAside.seq (.wait 2)
      intro waited stillUnread
      apply pollLoop_runsAside answers quiet rounds
      simp [position, read, unread, stillUnread]

theorem printErrorRegister_runsAside (device : Int) (before : Transcript) :
    ∃ alternate,
      RunsAside (printErrorRegister (answering answers) device) before ()
        alternate := by
  have noStatus : errorRegister ≠ statusRegister := by decide
  have noAlternate : errorRegister ≠ alternateStatusRegister := by decide
  have selected :=
    @doDeviceSelectionProtocol_runsAside answers device before _ rfl
  refine ⟨_, selected.last ?_⟩
  intro added
  split
  · apply RunsAside.seq (.inb noStatus noAlternate)
    intro _ _
    exact .pure
  · exact .pure

theorem readyLoop_runsAside (device : Int) (attempts : Nat)
    {before : Transcript} {start : Nat}
    (position : (bytesFrom alternateStatusRegister before).length = start) :
    RunsAside (readyLoop (answering answers) device attempts) before
      (readiness attempts
        (later (answers.bytes alternateStatusRegister) start)).1
      (readiness attempts
        (later (answers.bytes alternateStatusRegister) start)).2 := by
  induction attempts generalizing before start with
  | zero => exact .pure
  | succ attempts induction =>
      have selected :=
        doDeviceSelectionProtocol_runsAside answers device position
      rw [readiness, later_later]
      cases succeeded : (selection
          (later (answers.bytes alternateStatusRegister) start)).1 with
      | true =>
          rw [if_pos rfl, succeeded]
          rw [succeeded] at selected
          apply selected.last
          intro added
          exact .iteTrue rfl .pure
      | false =>
          rw [if_neg Bool.false_ne_true]
          rw [succeeded] at selected
          apply selected.bind
          intro added read
          apply RunsAside.iteFalse Bool.false_ne_true
          apply RunsAside.seq (.wait 5)
          intro waited unread
          apply induction
          simp [position, read, unread]

theorem waitUntilDeviceIsReady_runsAside (device : Int)
    {before : Transcript} {start : Nat}
    (position : (bytesFrom alternateStatusRegister before).length = start) :
    ∃ alternate,
      RunsAside (waitUntilDeviceIsReady (answering answers) device) before
        (becomesReady (later (answers.bytes alternateStatusRegister) start))
        alternate := by
  unfold waitUntilDeviceIsReady becomesReady
  exact ⟨_, readyLoop_runsAside answers device 5 position⟩

/-! ## Transferring a sector -/

theorem setSector_runsAside (sector : Word) (before : Transcript) :
    RunsAside (setSector (answering answers) sector) before () 0 := by
  have control : deviceControlRegister ≠ commandRegister := by decide
  have features : featuresRegister ≠ commandRegister := by decide
  have sectorNumber : sectorNumberRegister ≠ commandRegister := by decide
  have cylinderLow : cylinderLowRegister ≠ commandRegister := by decide
  have cylinderHigh : cylinderHighRegister ≠ commandRegister := by decide
  have deviceHead : deviceHeadRegister ≠ commandRegister := by decide
  have sectorCount : sectorCountRegister ≠ commandRegister := by decide
  unfold setSector
  apply RunsAside.seq (.outb _ control)
  intro _ _
  apply RunsAside.seq (.outb _ features)
  intro _ _
  apply RunsAside.seq (.outb _ sectorNumber)
  intro _ _
  apply RunsAside.seq (.outb _ cylinderLow)
  intro _ _
  apply RunsAside.seq (.outb _ cylinderHigh)
  intro _ _
  apply RunsAside.seq (.outb _ deviceHead)
  intro _ _
  exact .outb _ sectorCount

/-- The poll behind a command reads up to the status which decides. -/
theorem readStatusRegister_adds (device : Int) (reads : Nat)
    {before : Transcript} {start : Nat}
    (position : (bytesFrom statusRegister before).length = start) :
    ∃ tail, (∀ access ∈ tail, aside access = true) ∧
      Adds (readStatusRegister (answering answers) device reads) before
        (pollAnswer reads (later (answers.bytes statusRegister) start))
        (answers.reads statusRegister start
          (seen reads (firstWithin decides
            (later (answers.bytes statusRegister) start) reads)) ++ tail) := by
  induction reads generalizing before start with
  | zero => exact ⟨[], by simp, .pure⟩
  | succ reads induction =>
      have read := @Adds.next before answers statusRegister start position
      have next :=
        length_bytesFrom_snoc position (answers.bytes statusRegister start)
      have here : later (answers.bytes statusRegister) start 0 =
          answers.bytes statusRegister start := rfl
      rw [firstWithin_succ, pollAnswer_succ, later_later, here, decides]
      cases error : isError (answers.bytes statusRegister start) with
      | true =>
          rcases printErrorRegister_runsAside answers device
            (before ++
              [.inb statusRegister (answers.bytes statusRegister start)])
            with ⟨_, tail, printed, _, quietly⟩
          refine ⟨tail, quietly, ?_⟩
          exact read.bind (.iteTrue error
            (List.append_nil tail ▸ printed.bind .pure))
      | false =>
          have noError : ¬isError (answers.bytes statusRegister start) =
              true :=
            Bool.not_eq_true _ ▸ error
          cases asks : isDrqActive (answers.bytes statusRegister start) with
          | true =>
              refine ⟨[], by simp, ?_⟩
              exact read.bind (.iteFalse noError (.iteTrue asks .pure))
          | false =>
              have asksNot :
                  ¬isDrqActive (answers.bytes statusRegister start) = true :=
                Bool.not_eq_true _ ▸ asks
              rcases induction next with ⟨tail, quietly, adds⟩
              refine ⟨tail, quietly, ?_⟩
              rw [Bool.or_self, if_neg Bool.false_ne_true,
                if_neg Bool.false_ne_true, seen_map, reads_succ]
              exact read.bind (.iteFalse noError (.iteFalse asksNot adds))

/-- The bounded poll fails where the unbounded one would go on. -/
theorem readStatusRegisterAgain_eq {State : Type} (bus : Bus State)
    (device : Int) (reads : Nat) :
    readStatusRegisterAgain bus device reads =
      (fun answer => answer.getD false) <$>
        readStatusRegister bus device reads := by
  induction reads with
  | zero => rfl
  | succ reads induction =>
      rw [readStatusRegisterAgain, readStatusRegister, map_bind]
      apply congrArg
      funext status
      rw [induction]
      split
      · rfl
      · split
        · rfl
        · rfl

section Command

variable {maxLogicalSectorNum sector : Word} {cmd : Byte} {device : Int}

/-- Without a device that is ready for the sector, no command is given. -/
theorem sectorRwCommon_refused
    (refused : maxLogicalSectorNum < sector ∨
      becomesReady (answers.bytes alternateStatusRegister) = false) :
    ∃ alternate,
      RunsAside
        (sectorRwCommon (answering answers) maxLogicalSectorNum cmd device
          sector)
        [] false alternate := by
  unfold sectorRwCommon
  by_cases outside : maxLogicalSectorNum < sector
  · exact ⟨0, .iteTrue outside .pure⟩
  · have notReady := refused.resolve_left outside
    rcases @waitUntilDeviceIsReady_runsAside answers device [] 0 rfl
      with ⟨alternate, waited⟩
    rw [later_zero, notReady] at waited
    refine ⟨alternate, .iteFalse outside (waited.last ?_)⟩
    intro added
    exact .iteFalse Bool.false_ne_true .pure

/-- Otherwise the command is given, and the statuses behind it decide. -/
theorem sectorRwCommon_commanded (inRange : ¬maxLogicalSectorNum < sector)
    (ready : becomesReady (answers.bytes alternateStatusRegister) = true) :
    ∃ front asked tail, (∀ access ∈ front, aside access = true) ∧
      (∀ access ∈ asked, aside access = true) ∧
      (∀ access ∈ tail, aside access = true) ∧
      Adds
        (sectorRwCommon (answering answers) maxLogicalSectorNum cmd device
          sector)
        [] (asksWithin 7 (answers.bytes statusRegister))
        (front ++ .outb cmd commandRegister :: (asked ++
          (answers.reads statusRegister 0
            (seen 7 (firstWithin decides (answers.bytes statusRegister) 7)) ++
              tail))) := by
  unfold sectorRwCommon
  rcases @waitUntilDeviceIsReady_runsAside answers device [] 0 rfl
    with ⟨_, waiting, waits, _, waitsAside⟩
  rw [later_zero, ready] at waits
  rcases setSector_runsAside answers sector ([] ++ waiting)
    with ⟨setting, sets, _, setsAside⟩
  have given := @Adds.outb ([] ++ waiting ++ setting) answers cmd
    commandRegister
  have waited := @Adds.wait
    ([] ++ waiting ++ setting ++ [.outb cmd commandRegister]) answers 4
  have asked := @Adds.inb
    ([] ++ waiting ++ setting ++ [.outb cmd commandRegister] ++ [.wait 4])
    answers alternateStatusRegister
  generalize answers.bytes alternateStatusRegister _ = data at asked
  have unread : (bytesFrom statusRegister ([] ++ waiting ++ setting ++
      [.outb cmd commandRegister] ++ [.wait 4] ++
        [.inb alternateStatusRegister data])).length = 0 := by
    rw [List.nil_append, bytesFrom_append, bytesFrom_append, bytesFrom_append,
      bytesFrom_append, bytesFrom_status_of_aside waitsAside,
      bytesFrom_status_of_aside setsAside]
    rfl
  rcases readStatusRegister_adds answers device 7 unread
    with ⟨tail, tailAside, polled⟩
  have polls := polled.map fun answer => answer.getD false
  rw [← readStatusRegisterAgain_eq, later_zero] at polls
  refine ⟨waiting ++ setting, [.wait 4, .inb alternateStatusRegister data],
    tail, ?_, ?_, tailAside, ?_⟩
  · intro access member
    rcases List.mem_append.mp member with early | late
    · exact waitsAside access early
    · exact setsAside access late
  · intro access member
    simp only [List.mem_cons, List.not_mem_nil, or_false] at member
    rcases member with rfl | rfl
    · rfl
    · rfl
  · rw [List.append_assoc]
    exact .iteFalse inRange (waits.bind (.iteTrue rfl (sets.bind
      (given.bind (waited.bind (asked.bind polls))))))

end Command

/-- The two reads which `finish_sector_rw` makes. -/
theorem finishSectorRw_adds {before : Transcript} {start : Nat}
    (position : (bytesFrom statusRegister before).length = start) :
    ∃ data, Adds (finishSectorRw (answering answers)) before ()
      [.inb alternateStatusRegister data,
        .inb statusRegister (answers.bytes statusRegister start)] := by
  have alternate := @Adds.inb before answers alternateStatusRegister
  generalize answers.bytes alternateStatusRegister _ = data at alternate
  have unread : (bytesFrom statusRegister (before ++
      [.inb alternateStatusRegister data])).length = start := by
    rw [bytesFrom_append, List.length_append, position]
    rfl
  have status := @Adds.next _ answers statusRegister start unread
  exact ⟨data, alternate.bind (status.bind .pure)⟩

theorem outWords_adds (buf : List Half) (before : Transcript) :
    Adds (outWords (answering answers) buf) before ()
      (buf.map fun word => .outw word dataRegister) := by
  induction buf generalizing before with
  | nil => exact .pure
  | cons word buf induction =>
      have sent := @Adds.outw before answers word dataRegister
      exact sent.bind (induction _)

theorem inWords_adds (size : Nat) {before : Transcript} {start : Nat}
    (position : (wordsFrom dataRegister before).length = start) :
    Adds (inWords (answering answers) size) before
      ((List.range size).map (later (answers.words dataRegister) start))
      (answers.wordReads dataRegister start size) := by
  induction size generalizing before start with
  | zero => exact .pure
  | succ size induction =>
      have read : Adds ((answering answers).inw dataRegister) before
          (answers.words dataRegister start)
          [.inw dataRegister (answers.words dataRegister start)] :=
        position ▸ .inw dataRegister
      have next : (wordsFrom dataRegister (before ++
          [.inw dataRegister (answers.words dataRegister start)])).length =
            start + 1 := by
        simp [wordsFrom, Access.wordFrom, ← position]
      have shifted :
          (List.range (size + 1)).map
              (later (answers.words dataRegister) start) =
            answers.words dataRegister start :: (List.range size).map
              (later (answers.words dataRegister) (start + 1)) :=
        map_range_succ id (answers.words dataRegister) start size
      rw [shifted, wordReads_succ,
        ← List.append_nil (answers.wordReads dataRegister (start + 1) size)]
      exact read.bind ((induction next).bind .pure)

end Driver

end MagicalOs.Devices.AtaTranscripts
