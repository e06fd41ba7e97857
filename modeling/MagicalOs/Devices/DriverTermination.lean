import MagicalOs.Devices.IdentifyDevice

/-!
# Which calls of the driver return

Reading and writing a sector poll the device with bounds, whatever it answers.
So does the initialisation, but for the poll behind IDENTIFY DEVICE, which goes
on until a status has ERR or DRQ.

The module says for which answers `open_ATA_disk` returns: when no device that
is being identified leaves that poll without such a status for ever.
-/

namespace MagicalOs.Devices.DriverTermination

open MagicalOs.Library.ByteMemory
open MagicalOs.Library.PortBus
open MagicalOs.Library.Transcripts
open MagicalOs.Devices.Ata
open MagicalOs.Devices.AtaTranscripts
open MagicalOs.Devices.IdentifyDevice

/-! ## The polls with bounds -/

/-- The operation does not read a cylinder register. -/
def noCylinder : Access → Prop
  | .inb port _ => port ≠ cylinderLowRegister ∧ port ≠ cylinderHighRegister
  | _ => True

section Bounds

variable (answers : Answers) (device : Int)

theorem noCylinder_inb {port : Half} (low : port ≠ cylinderLowRegister)
    (high : port ≠ cylinderHighRegister) :
    Within noCylinder 1 ((answering answers).inb port) :=
  .inb fun _ => ⟨low, high⟩

theorem pollLoop_within {port : Half} (done : Byte → Bool) (rounds : Nat)
    (low : port ≠ cylinderLowRegister) (high : port ≠ cylinderHighRegister) :
    Within noCylinder rounds
      (pollLoop (answering answers) done port rounds) := by
  induction rounds with
  | zero => exact .done
  | succ rounds hypothesis =>
      rw [pollLoop]
      apply (noCylinder_inb answers low high).read
      intro data
      exact .ite .pure hypothesis

/-- The reads of a selection. -/
def selectionReads : Nat := 2001

theorem doDeviceSelectionProtocol_within :
    Within noCylinder selectionReads
      (doDeviceSelectionProtocol (answering answers) device) := by
  have polled : Within noCylinder 1000
      (waitUntilBsyAndDrqAreZero (answering answers)
        alternateStatusRegister) :=
    pollLoop_within answers _ 1000 (by decide) (by decide)
  have selected : Within noCylinder 1
      (setDeviceNumber (answering answers) device) := by
    unfold setDeviceNumber
    apply (noCylinder_inb answers (by decide) (by decide)).read
    intro data
    apply (Within.outb trivial).seq
    intro _
    exact .wait trivial
  unfold doDeviceSelectionProtocol
  refine polled.bind ?_ (by decide : 1000 + (1000 + 1) ≤ 2001)
  intro ret
  apply Within.ite
  · apply selected.read
    intro _
    apply (Within.wait trivial).seq
    intro _
    exact polled
  · exact .pure

theorem printErrorRegister_within :
    Within noCylinder (selectionReads + 1)
      (printErrorRegister (answering answers) device) := by
  unfold printErrorRegister
  refine (doDeviceSelectionProtocol_within answers device).bind ?_
    (Nat.le_refl _)
  intro selected
  apply Within.ite
  · apply (noCylinder_inb answers (by decide) (by decide)).read
    intro _
    exact .done
  · exact .pure

theorem readyLoop_within (attempts : Nat) :
    Within noCylinder (attempts * selectionReads)
      (readyLoop (answering answers) device attempts) := by
  induction attempts with
  | zero => exact .pure
  | succ attempts hypothesis =>
      rw [readyLoop]
      refine (doDeviceSelectionProtocol_within answers device).bind ?_
        (Nat.le_of_eq (by rw [Nat.succ_mul, Nat.add_comm]))
      intro selected
      apply Within.ite .pure
      apply (Within.wait trivial).seq
      intro _
      exact hypothesis

/-- A poll of the status, and the report of an error. -/
theorem readStatusRegister_within (reads : Nat) :
    Within noCylinder (reads + (selectionReads + 1))
      (readStatusRegister (answering answers) device reads) := by
  induction reads with
  | zero => exact .pure
  | succ reads hypothesis =>
      rw [readStatusRegister, Nat.add_right_comm]
      apply (noCylinder_inb answers (by decide) (by decide)).read
      intro data
      apply Within.ite
      · refine (printErrorRegister_within answers device).bind
          (fun _ => .done) ?_
        omega
      · exact .ite .pure hypothesis

theorem sectorRwCommon_within (maxLogicalSectorNum : Word) (cmd : Byte)
    (sector : Word) :
    Within noCylinder 12015
      (sectorRwCommon (answering answers) maxLogicalSectorNum cmd device
        sector) := by
  have ready := readyLoop_within answers device 5
  have set : Within noCylinder 0 (setSector (answering answers) sector) := by
    unfold setSector
    iterate 6
      apply (Within.outb trivial).seq
      intro _
    exact .outb trivial
  have polled : Within noCylinder (7 + (selectionReads + 1))
      (readStatusRegisterAgain (answering answers) device 7) := by
    rw [readStatusRegisterAgain_eq]
    exact (readStatusRegister_within answers device 7).map _
  unfold sectorRwCommon waitUntilDeviceIsReady
  apply Within.ite .pure
  refine ready.bind ?_
    (by decide : 5 * selectionReads + (7 + (selectionReads + 1) + 1) ≤ 12015)
  intro b
  apply Within.ite
  · apply set.seq
    intro _
    apply (Within.outb trivial).seq
    intro _
    apply (Within.wait trivial).seq
    intro _
    apply (noCylinder_inb answers (by decide) (by decide)).read
    intro _
    exact polled
  · exact .pure

theorem finishSectorRw_within :
    Within noCylinder 2 (finishSectorRw (answering answers)) := by
  unfold finishSectorRw
  apply (noCylinder_inb answers (by decide) (by decide)).read
  intro _
  apply (noCylinder_inb answers (by decide) (by decide)).read
  intro _
  exact .done

theorem outWords_within (buf : List Half) :
    Within noCylinder 0 (outWords (answering answers) buf) := by
  induction buf with
  | nil => exact .done
  | cons word buf hypothesis =>
      apply (Within.outw trivial).seq
      intro _
      exact hypothesis

theorem inWords_within (size : Nat) :
    Within noCylinder size (inWords (answering answers) size) := by
  induction size with
  | zero => exact .done
  | succ size hypothesis =>
      rw [inWords]
      apply (Within.inw fun _ => trivial).read
      intro word
      exact hypothesis.bind (fun _ => .done) (Nat.le_refl size)

theorem writeSector_within (maxLogicalSectorNum sector : Word)
    (buf : List Half) :
    Within noCylinder 12017
      (writeSector (answering answers) maxLogicalSectorNum device sector
        buf) := by
  unfold writeSector
  refine (sectorRwCommon_within answers device _ _ _).bind ?_
    (by decide : 12015 + 2 ≤ 12017)
  intro ret
  apply Within.ite
  · refine (finishSectorRw_within answers).bind ?_ (by decide : 2 + 0 ≤ 2)
    intro _
    apply (outWords_within answers buf).seq
    intro _
    exact .done
  · exact .pure

theorem readSector_within (maxLogicalSectorNum sector : Word)
    {buf : List Half} (whole : buf.length = 256) :
    Within noCylinder 12273
      (readSector (answering answers) maxLogicalSectorNum device sector
        buf) := by
  unfold readSector
  rw [if_neg (not_not.mpr whole), whole]
  refine (sectorRwCommon_within answers device _ _ _).bind ?_
    (by decide : 12015 + (256 + 2) ≤ 12273)
  intro ret
  apply Within.ite
  · refine (inWords_within answers 256).bind ?_ (Nat.le_refl (256 + 2))
    intro words
    refine (finishSectorRw_within answers).bind ?_ (by decide : 2 + 0 ≤ 2)
    intro _
    exact .done
  · exact .pure

theorem readSector_isSome {State : Type} (bus : Bus State)
    (maxLogicalSectorNum sector : Word) {buf : List Half}
    (whole : buf.length = 256) (before : State) :
    ((readSector bus maxLogicalSectorNum device sector buf).run
      before).1.isSome := by
  unfold readSector
  rw [if_neg (not_not.mpr whole), StateT.run_bind]
  generalize (sectorRwCommon bus maxLogicalSectorNum pioSectorReadCmd device
    sector).run before = run
  rcases run with ⟨ret, after⟩
  cases ret with
  | true => rfl
  | false => rfl

end Bounds

/-! ## The parts of the initialisation -/

section Continuing

variable {State : Type} (bus : Bus State) (device : Int) {reads more : Nat}

/-- `initialize_common` once the type of the device is known. -/
def afterType (reads : Nat) (maxLogicalSectorNum : Word) :
    DeviceType → StateM State (Identify × Word)
  | .ata => do
      let identify ← doIdentifyDevice bus reads device
      return (identify, identify.maxLogicalSectorNum maxLogicalSectorNum)
  | .atapi => return (.failed, maxLogicalSectorNum)
  | .unknown => return (.failed, maxLogicalSectorNum)

theorem initializeCommon_eq (maxLogicalSectorNum : Word) :
    initializeCommon bus reads device maxLogicalSectorNum = (do
      doSoftReset bus device
      let low ← bus.inb cylinderLowRegister
      let high ← bus.inb cylinderHighRegister
      afterType bus device reads maxLogicalSectorNum
        (getDeviceType high low)) := by
  unfold initializeCommon
  apply bind_congr
  intro _
  apply bind_congr
  intro low
  apply bind_congr
  intro high
  cases getDeviceType high low with
  | ata => rfl
  | atapi => rfl
  | unknown => rfl

/-- `open_ATA_disk` behind the initialisation of the slave. -/
def opened (master : Identify) : Identify × Word → Option Opened
  | (.waits, _) => none
  | (slave, maxLogicalSectorNum) =>
      some { ret := 0, maxLogicalSectorNum, master, slave := some slave }

/-- `open_ATA_disk` behind the initialisation of the master. -/
def afterMaster (reads : Nat) :
    Identify × Word → StateM State (Option Opened)
  | (.waits, _) => return none
  | (.failed, maxLogicalSectorNum) =>
      return some
        { ret := -1, maxLogicalSectorNum, master := .failed, slave := none }
  | (master, maxLogicalSectorNum) =>
      opened master <$> initializeCommon bus reads 1 maxLogicalSectorNum

theorem openAtaDisk_eq (maxLogicalSectorNum : Word) :
    openAtaDisk bus reads maxLogicalSectorNum =
      initializeCommon bus reads 0 maxLogicalSectorNum >>=
        afterMaster bus reads := by
  unfold openAtaDisk
  apply bind_congr
  rintro ⟨master, word⟩
  cases master with
  | waits => rfl
  | failed => rfl
  | notReady =>
      apply Eq.trans _ (map_eq_pure_bind _ _).symm
      apply bind_congr
      rintro ⟨slave, last⟩
      cases slave <;> rfl
  | identified buf =>
      apply Eq.trans _ (map_eq_pure_bind _ _).symm
      apply bind_congr
      rintro ⟨slave, last⟩
      cases slave <;> rfl

theorem returned_eq_none {outcome : Identify}
    (unreturned : returned outcome = none) : outcome = .waits := by
  cases outcome with
  | waits => rfl
  | failed => cases unreturned
  | notReady => cases unreturned
  | identified buf => cases unreturned

theorem returned_eq_false {outcome : Identify}
    (isFalse : returned outcome = some false) : outcome = .failed := by
  cases outcome with
  | waits => cases isFalse
  | failed => rfl
  | notReady => cases isFalse
  | identified buf => cases isFalse

/-- Behind a master which was set up, the slave decides. -/
theorem afterMaster_of_true {master : Identify} (maxLogicalSectorNum : Word)
    (isTrue : returned master = some true) :
    afterMaster bus reads (master, maxLogicalSectorNum) =
      opened master <$>
        initializeCommon bus reads 1 maxLogicalSectorNum := by
  cases master with
  | waits => cases isTrue
  | failed => cases isTrue
  | notReady => rfl
  | identified buf => rfl

theorem opened_isSome (master : Identify) (slave : Identify × Word) :
    (opened master slave).isSome = (returned slave.1).isSome := by
  rcases slave with ⟨slave, last⟩
  cases slave with
  | waits => rfl
  | failed => rfl
  | notReady => rfl
  | identified buf => rfl

/-! ## The poll without a bound -/

/-- The function returns. -/
def Left (outcome : Identify) : Prop :=
  (returned outcome).isSome = true

/-- Once the poll is left, a larger number of reads does not matter. -/
theorem readStatusRegister_continues (enough : reads ≤ more) :
    Continues (fun answer => answer.isSome = true)
      (readStatusRegister bus device reads)
      (readStatusRegister bus device more) := by
  induction reads generalizing more with
  | zero =>
      intro before impossible
      cases impossible
  | succ reads hypothesis =>
      cases more with
      | zero => exact absurd enough (Nat.not_succ_le_zero reads)
      | succ more =>
          rw [readStatusRegister, readStatusRegister]
          apply Continues.last
          intro data
          apply Continues.ite .refl
          apply Continues.ite .refl
          exact hypothesis (Nat.le_of_succ_le_succ enough)

theorem doIdentifyDevice_continues (enough : reads ≤ more) :
    Continues Left (doIdentifyDevice bus reads device)
      (doIdentifyDevice bus more device) := by
  rw [doIdentifyDevice_eq, doIdentifyDevice_eq]
  apply Continues.last
  intro _
  apply Continues.last
  intro ready
  apply Continues.ite _ .refl
  apply Continues.last
  intro _
  apply Continues.last
  intro _
  unfold afterCommand
  apply Continues.last
  intro free
  apply Continues.ite _ .refl
  apply Continues.last
  intro _
  apply (readStatusRegister_continues bus device enough).bind
  · intro answer
    exact .refl
  · intro answer unanswered before left
    rw [Bool.not_eq_true, Option.isSome_eq_false_iff,
      Option.isNone_iff_eq_none] at unanswered
    rw [unanswered] at left
    cases left

theorem initializeCommon_continues (maxLogicalSectorNum : Word)
    (enough : reads ≤ more) :
    Continues (fun value => Left value.1)
      (initializeCommon bus reads device maxLogicalSectorNum)
      (initializeCommon bus more device maxLogicalSectorNum) := by
  rw [initializeCommon_eq, initializeCommon_eq]
  apply Continues.last
  intro _
  apply Continues.last
  intro low
  apply Continues.last
  intro high
  cases getDeviceType high low with
  | ata =>
      apply (doIdentifyDevice_continues bus device enough).bind
      · intro identify
        exact .refl
      · intro identify waits before left
        exact waits left
  | atapi => exact .refl
  | unknown => exact .refl

theorem openAtaDisk_continues (maxLogicalSectorNum : Word)
    (enough : reads ≤ more) :
    Continues (fun opened => opened.isSome = true)
      (openAtaDisk bus reads maxLogicalSectorNum)
      (openAtaDisk bus more maxLogicalSectorNum) := by
  have slave (word : Word) (master : Identify) :
      Continues (fun opened => opened.isSome = true)
        (opened master <$> initializeCommon bus reads 1 word)
        (opened master <$> initializeCommon bus more 1 word) := by
    apply (initializeCommon_continues bus 1 word enough).map
    intro slave waits isOpen
    rw [opened_isSome] at isOpen
    exact waits isOpen
  rw [openAtaDisk_eq, openAtaDisk_eq]
  apply (initializeCommon_continues bus 0 maxLogicalSectorNum enough).bind
  · rintro ⟨master, word⟩
    cases master with
    | waits => exact .refl
    | failed => exact .refl
    | notReady => exact slave word .notReady
    | identified buf => exact slave word (.identified buf)
  · rintro ⟨master, word⟩ waits before isOpen
    cases master with
    | waits => cases isOpen
    | failed => exact waits rfl
    | notReady => exact waits rfl
    | identified buf => exact waits rfl

end Continuing

/-! ## How an identification ends -/

section Exits

/-- How the function is left, and how many statuses have been read then. -/
inductive Exit where
  | waits
  | failed
  | passed (statuses : Nat)

/-- The outcome, and the number of statuses behind it, are as they should. -/
def Exit.Fits : Exit → Identify → Nat → Prop
  | .waits, outcome, _ => returned outcome = none
  | .failed, outcome, _ => returned outcome = some false
  | .passed statuses, outcome, count =>
      returned outcome = some true ∧ count = statuses

theorem Exit.Fits.left_iff {ending : Exit} {outcome : Identify} {count : Nat}
    (fits : ending.Fits outcome count) :
    (returned outcome).isSome = true ↔ ending ≠ .waits := by
  cases ending with
  | waits =>
      have unreturned : returned outcome = none := fits
      simp [unreturned]
  | failed =>
      have isFalse : returned outcome = some false := fits
      simp [isFalse]
  | passed statuses =>
      have isTrue : returned outcome = some true := fits.1
      simp [isTrue]

/-- How the poll is left which begins with the status `start`. -/
def pollExit (reads : Nat) (status : Nat → Byte) (start : Nat) : Exit :=
  match firstWithin decides (later status start) reads with
  | none => .waits
  | some index =>
      if isError (status (start + index)) ||
          df (status (start + index + 1)) then
        .failed
      else
        .passed (start + index + 2)

/-- How it is left once the command has been given. -/
def commandExit (rounds reads : Nat) (status : Nat → Byte) (start : Nat) :
    Exit :=
  match firstWithin isFree (later status (start + 1)) rounds with
  | none => .failed
  | some free => pollExit reads status (start + free + 2)

/-- How `do_identify_device` is left, whose first status is `start`. -/
def exit (reads : Nat) (status : Nat → Byte) (start : Nat) : Exit :=
  if drdy (status start) then
    commandExit 1000 reads status start
  else
    .passed (start + 1)

/-- DRDY is set, BSY is cleared, and then there is neither ERR nor DRQ. -/
def Hangs (status : Nat → Byte) (start : Nat) : Prop :=
  drdy (status start) = true ∧
    ∃ free, firstWithin isFree (later status (start + 1)) 1000 = some free ∧
      ∀ index, decides (status (start + free + 2 + index)) = false

/-- The function returns true, and `next` statuses have been read then. -/
def Passes (status : Nat → Byte) (start next : Nat) : Prop :=
  drdy (status start) = false ∧ next = start + 1 ∨
    drdy (status start) = true ∧ ∃ free index,
      firstWithin isFree (later status (start + 1)) 1000 = some free ∧
        DecidesAt (later status (start + free + 2)) index ∧
        isError (status (start + free + 2 + index)) = false ∧
        df (status (start + free + 2 + index + 1)) = false ∧
        next = start + free + 2 + index + 2

variable {status : Nat → Byte} {start next rounds reads free index : Nat}

theorem pollExit_of_none
    (missed : firstWithin decides (later status start) reads = none) :
    pollExit reads status start = .waits := by
  rw [pollExit, missed]

theorem pollExit_of_some
    (decided : firstWithin decides (later status start) reads =
      some index) :
    pollExit reads status start =
      if isError (status (start + index)) ||
          df (status (start + index + 1)) then
        .failed
      else
        .passed (start + index + 2) := by
  rw [pollExit, decided]

theorem commandExit_of_none
    (busy : firstWithin isFree (later status (start + 1)) rounds = none) :
    commandExit rounds reads status start = .failed := by
  rw [commandExit, busy]

theorem commandExit_of_some
    (found : firstWithin isFree (later status (start + 1)) rounds =
      some free) :
    commandExit rounds reads status start =
      pollExit reads status (start + free + 2) := by
  rw [commandExit, found]

theorem exit_of_notReady (notReady : drdy (status start) = false) :
    exit reads status start = .passed (start + 1) := by
  rw [exit, notReady, if_neg Bool.false_ne_true]

theorem exit_of_ready (ready : drdy (status start) = true) :
    exit reads status start = commandExit 1000 reads status start := by
  rw [exit, ready, if_pos rfl]

theorem exit_of_hangs (hangs : Hangs status start) (reads : Nat) :
    exit reads status start = .waits := by
  rcases hangs with ⟨ready, free, found, undecided⟩
  rw [exit_of_ready ready, commandExit_of_some found]
  apply pollExit_of_none
  exact firstWithin_eq_none_iff.mpr fun index _ => undecided index

theorem exit_of_passes (passes : Passes status start next) (reads : Nat) :
    exit reads status start = .waits ∨
      exit reads status start = .passed next := by
  rcases passes with ⟨notReady, rfl⟩ |
    ⟨ready, free, index, found, decided, noError, noFault, rfl⟩
  · exact .inr (exit_of_notReady notReady)
  · rw [exit_of_ready ready, commandExit_of_some found]
    by_cases enough : index < reads
    · have first := decided.firstWithin enough
      rw [pollExit_of_some first, noError, noFault]
      exact .inr rfl
    · apply Or.inl
      apply pollExit_of_none
      apply firstWithin_eq_none_iff.mpr
      intro earlier below
      exact decided.2 earlier (Nat.lt_of_lt_of_le below (Nat.le_of_not_lt
        enough))

/-- An exit from the poll does not depend on the number of reads. -/
theorem pollExit_mono {more : Nat} (enough : reads ≤ more)
    (left : pollExit reads status start ≠ .waits) :
    pollExit more status start = pollExit reads status start := by
  cases decided : firstWithin decides (later status start) reads with
  | none => exact absurd (pollExit_of_none decided) left
  | some index =>
      rw [pollExit_of_some decided,
        pollExit_of_some (firstWithin_mono enough decided)]

theorem exit_mono {more : Nat} (enough : reads ≤ more)
    (left : exit reads status start ≠ .waits) :
    exit more status start = exit reads status start := by
  cases ready : drdy (status start) with
  | false => rw [exit_of_notReady ready, exit_of_notReady ready]
  | true =>
      rw [exit_of_ready ready] at left
      rw [exit_of_ready ready, exit_of_ready ready]
      cases found : firstWithin isFree (later status (start + 1)) 1000 with
      | none => rw [commandExit_of_none found, commandExit_of_none found]
      | some free =>
          rw [commandExit_of_some found] at left
          rw [commandExit_of_some found, commandExit_of_some found]
          exact pollExit_mono enough left

theorem passes_of_exit (passed : exit reads status start = .passed next) :
    Passes status start next := by
  cases ready : drdy (status start) with
  | false =>
      rw [exit_of_notReady ready, Exit.passed.injEq] at passed
      exact .inl ⟨ready, passed.symm⟩
  | true =>
      rw [exit_of_ready ready] at passed
      cases found : firstWithin isFree (later status (start + 1)) 1000 with
      | none =>
          rw [commandExit_of_none found] at passed
          cases passed
      | some free =>
          rw [commandExit_of_some found] at passed
          cases decided : firstWithin decides
              (later status (start + free + 2)) reads with
          | none =>
              rw [pollExit_of_none decided] at passed
              cases passed
          | some index =>
              rw [pollExit_of_some decided] at passed
              split at passed
              · cases passed
              · rename_i fine
                rw [Bool.not_eq_true, Bool.or_eq_false_iff] at fine
                refine .inr ⟨ready, free, index, found,
                  (firstWithin_eq_some_iff.mp decided).2, fine.1, fine.2, ?_⟩
                exact (Exit.passed.inj passed).symm

/-- What does not hang is left with enough reads. -/
theorem exists_exit (moves : ¬Hangs status start) :
    ∃ reads, exit reads status start ≠ .waits := by
  by_contra never
  push Not at never
  cases ready : drdy (status start) with
  | false =>
      have now := never 0
      rw [exit_of_notReady ready] at now
      cases now
  | true =>
      cases found : firstWithin isFree (later status (start + 1)) 1000 with
      | none =>
          have now := never 0
          rw [exit_of_ready ready, commandExit_of_none found] at now
          cases now
      | some free =>
          apply moves
          refine ⟨ready, free, found, ?_⟩
          intro index
          have now := never (index + 1)
          rw [exit_of_ready ready, commandExit_of_some found] at now
          cases decided : firstWithin decides
              (later status (start + free + 2)) (index + 1) with
          | none =>
              exact firstWithin_eq_none_iff.mp decided index
                (Nat.lt_succ_self index)
          | some other =>
              rw [pollExit_of_some decided] at now
              split at now
              · cases now
              · cases now

end Exits

/-! ## The runs of the initialisation -/

section Runs

variable {answers : Answers} {reads : Nat} {device : Int}
  {before : Transcript} {start : Nat}

theorem counts_of_runsAside {Value : Type}
    {program : StateM Transcript Value} {value : Value} {alternate : Nat}
    (runs : RunsAside program before value alternate) :
    Counts statusRegister program before value 0 := by
  rcases runs with ⟨added, adds, _, quietly⟩
  exact .ofUnread adds (bytesFrom_status_of_aside quietly)

theorem readStatusRegister_counts
    (position : (bytesFrom statusRegister before).length = start) :
    Counts statusRegister
      (readStatusRegister (answering answers) device reads) before
      (pollAnswer reads (later (answers.bytes statusRegister) start))
      (seen reads (firstWithin decides
        (later (answers.bytes statusRegister) start) reads)) := by
  rcases readStatusRegister_adds answers device reads position
    with ⟨tail, tailAside, adds⟩
  refine ⟨_, adds, ?_⟩
  rw [bytesFrom_append, bytesFrom_status_of_aside tailAside, List.append_nil,
    bytesFrom_reads]

theorem getDrdy_counts
    (position : (bytesFrom statusRegister before).length = start) :
    Counts statusRegister (getDrdy (answering answers)) before
      (drdy (answers.bytes statusRegister start)) 1 := by
  have read := @Adds.next before answers statusRegister start position
  exact ⟨_, read.bind .pure, rfl⟩

/-- Behind `before`, the program is left as given. -/
def LeftBy (program : StateM Transcript Identify) (before : Transcript)
    (ending : Exit) : Prop :=
  ∃ outcome added, Adds program before outcome added ∧
    ending.Fits outcome (bytesFrom statusRegister (before ++ added)).length

theorem LeftBy.pure {ending : Exit} {outcome : Identify}
    (position : (bytesFrom statusRegister before).length = start)
    (fits : ending.Fits outcome start) :
    LeftBy (Pure.pure outcome) before ending := by
  refine ⟨outcome, [], .pure, ?_⟩
  rw [List.append_nil, position]
  exact fits

theorem LeftBy.bind {Value : Type} {program : StateM Transcript Value}
    {next : Value → StateM Transcript Identify} {value : Value}
    {count : Nat} {ending : Exit}
    (position : (bytesFrom statusRegister before).length = start)
    (head : Counts statusRegister program before value count)
    (tail : ∀ added,
      (bytesFrom statusRegister (before ++ added)).length = start + count →
        LeftBy (next value) (before ++ added) ending) :
    LeftBy (program >>= next) before ending := by
  rcases head with ⟨added, adds, read⟩
  have behind : (bytesFrom statusRegister (before ++ added)).length =
      start + count := by
    rw [bytesFrom_append, List.length_append, position, read]
  rcases tail added behind with ⟨outcome, more, addsMore, fits⟩
  refine ⟨outcome, added ++ more, adds.bind addsMore, ?_⟩
  rw [← List.append_assoc]
  exact fits

/-- A program which reads no status goes first. -/
theorem LeftBy.seq {Value : Type} {program : StateM Transcript Value}
    {next : Value → StateM Transcript Identify} {value : Value}
    {ending : Exit}
    (position : (bytesFrom statusRegister before).length = start)
    (head : Counts statusRegister program before value 0)
    (tail : ∀ added,
      (bytesFrom statusRegister (before ++ added)).length = start →
        LeftBy (next value) (before ++ added) ending) :
    LeftBy (program >>= next) before ending :=
  .bind position head tail

theorem afterPoll_leftBy
    (position : (bytesFrom statusRegister before).length = start) :
    LeftBy (afterPoll (answering answers) (some true)) before
      (if df (answers.bytes statusRegister start) then
        .failed
      else
        .passed (start + 1)) := by
  have fault : Counts statusRegister (isDeviceFault (answering answers))
      before (df (answers.bytes statusRegister start)) 1 :=
    ⟨_, isDeviceFault_adds position, rfl⟩
  rw [afterPoll]
  apply LeftBy.bind position fault
  intro added behind
  cases df (answers.bytes statusRegister start) with
  | true => exact .pure behind rfl
  | false =>
      have stored := @inWords_adds answers 256 (before ++ added) _ rfl
      apply LeftBy.seq behind (.ofUnread stored (bytesFrom_wordReads _))
      intro words after
      exact .pure after ⟨rfl, rfl⟩

theorem poll_leftBy
    (position : (bytesFrom statusRegister before).length = start) :
    LeftBy
      (readStatusRegister (answering answers) device reads >>=
        afterPoll (answering answers))
      before (pollExit reads (answers.bytes statusRegister) start) := by
  apply LeftBy.bind position (readStatusRegister_counts position)
  intro added behind
  cases decided : firstWithin decides
      (later (answers.bytes statusRegister) start) reads with
  | none =>
      rw [pollExit, pollAnswer, decided]
      exact .pure rfl rfl
  | some index =>
      rw [decided] at behind
      rw [pollExit, pollAnswer, decided]
      change LeftBy
        (afterPoll _ (some !isError (answers.bytes statusRegister
          (start + index)))) _
        (if isError (answers.bytes statusRegister (start + index)) ||
            df (answers.bytes statusRegister (start + index + 1)) then
          .failed
        else
          .passed (start + index + 2))
      cases isError (answers.bytes statusRegister (start + index)) with
      | true => exact .pure rfl rfl
      | false => exact afterPoll_leftBy behind

theorem afterCommand_leftBy
    (position : (bytesFrom statusRegister before).length = start + 1) :
    LeftBy (afterCommand (answering answers) reads device) before
      (commandExit 1000 reads (answers.bytes statusRegister) start) := by
  rw [afterCommand]
  apply LeftBy.bind position
    ⟨_, waitUntilBsyIsZero_adds position, bytesFrom_reads⟩
  intro polling behind
  cases found : firstWithin isFree
      (later (answers.bytes statusRegister) (start + 1)) 1000 with
  | none =>
      rw [commandExit_of_none found]
      exact .pure rfl rfl
  | some free =>
      rw [commandExit_of_some found]
      rw [found, seen_some, ← Nat.add_assoc, Nat.add_right_comm start 1 free]
        at behind
      apply LeftBy.seq behind
        (.ofUnread (.inb alternateStatusRegister) rfl)
      intro asking still
      exact poll_leftBy still

theorem doIdentifyDevice_leftBy
    (position : (bytesFrom statusRegister before).length = start) :
    LeftBy (doIdentifyDevice (answering answers) reads device) before
      (exit reads (answers.bytes statusRegister) start) := by
  have selected := counts_of_runsAside
    (@doDeviceSelectionProtocol_runsAside answers device before _ rfl)
  rw [doIdentifyDevice_eq]
  apply LeftBy.seq position selected
  intro selecting behind
  apply LeftBy.bind behind (getDrdy_counts behind)
  intro asking ready
  cases isReady : drdy (answers.bytes statusRegister start) with
  | false =>
      rw [exit_of_notReady isReady]
      exact .pure ready ⟨rfl, rfl⟩
  | true =>
      rw [exit_of_ready isReady, if_pos rfl]
      apply LeftBy.seq ready (.ofUnread (.outb 0xec#8 commandRegister) rfl)
      intro commanding still
      apply LeftBy.seq still (.ofUnread (.wait 5) rfl)
      intro waiting commanded
      exact afterCommand_leftBy commanded

/-! ## The initialisation of a device -/

/-- So many statuses were read, and so many pairs of cylinder registers. -/
structure Position (transcript : Transcript) (statuses devices : Nat) :
    Prop where
  status : (bytesFrom statusRegister transcript).length = statuses
  low : (bytesFrom cylinderLowRegister transcript).length = devices
  high : (bytesFrom cylinderHighRegister transcript).length = devices

theorem Position.append {added : Transcript} {devices more further : Nat}
    (position : Position before start devices)
    (moves : Position added more further) :
    Position (before ++ added) (start + more) (devices + further) := by
  constructor
  · rw [bytesFrom_append, List.length_append, position.status, moves.status]
  · rw [bytesFrom_append, List.length_append, position.low, moves.low]
  · rw [bytesFrom_append, List.length_append, position.high, moves.high]

theorem position_of_noCylinder {added : Transcript} {count : Nat}
    (read : (bytesFrom statusRegister added).length = count)
    (untouched : ∀ access ∈ added, noCylinder access) :
    Position added count 0 := by
  have unread (port : Half)
      (isCylinder : port = cylinderLowRegister ∨
        port = cylinderHighRegister) :
      (bytesFrom port added).length = 0 := by
    rw [List.length_eq_zero_iff]
    apply List.filterMap_eq_nil_iff.mpr
    intro access member
    have allowed := untouched access member
    cases access with
    | inb other data =>
        apply if_neg
        rintro rfl
        exact isCylinder.elim allowed.1 allowed.2
    | outb data other => rfl
    | inw other word => rfl
    | outw word other => rfl
    | wait usec => rfl
  exact ⟨read, unread _ (.inl rfl), unread _ (.inr rfl)⟩

theorem doSoftReset_adds :
    ∃ reset, Adds (doSoftReset (answering answers) device) before () reset ∧
      Position reset 0 0 := by
  have read := @Adds.inb before answers deviceHeadRegister
  refine ⟨_, (read.bind ((Adds.outb _ _).bind (.wait 5))).bind
    ((Adds.outb 0x08#8 commandRegister).bind (.wait 5)), ?_⟩
  exact ⟨rfl, rfl, rfl⟩

/-- The cylinder registers of the device are those of an ATA device. -/
def IsAta (answers : Answers) (devices : Nat) : Prop :=
  answers.bytes cylinderHighRegister devices = 0x0#8 ∧
    answers.bytes cylinderLowRegister devices = 0x0#8

instance (devices : Nat) : Decidable (IsAta answers devices) :=
  inferInstanceAs (Decidable (_ ∧ _))

/-- How `initialize_common` is left. -/
def setup (reads : Nat) (answers : Answers) (devices start : Nat) : Exit :=
  if IsAta answers devices then
    exit reads (answers.bytes statusRegister) start
  else
    .failed

theorem inbStatus_within :
    Within noCylinder 1 ((answering answers).inb statusRegister) :=
  noCylinder_inb answers (by decide) (by decide)

theorem afterPoll_within (answer : Option Bool) :
    Within noCylinder 257 (afterPoll (answering answers) answer) := by
  have fault : Within noCylinder 1 (isDeviceFault (answering answers)) :=
    inbStatus_within.bind (fun _ => .done) (Nat.le_refl 1)
  rcases answer with _ | _ | _
  · exact .pure
  · exact .pure
  · apply fault.read
    intro isFault
    apply Within.ite .pure
    exact (inWords_within answers 256).bind (fun _ => .done)
      (Nat.le_refl 256)

theorem afterCommand_within (reads : Nat) :
    Within noCylinder (reads + 3260)
      (afterCommand (answering answers) reads device) := by
  have busy : Within noCylinder 1000
      (waitUntilBsyIsZero (answering answers) statusRegister) :=
    pollLoop_within answers _ 1000 (by decide) (by decide)
  unfold afterCommand
  refine busy.bind ?_
    (by omega : 1000 + (reads + 2259 + 1) ≤ reads + 3260)
  intro isFree
  apply Within.ite _ .pure
  apply (noCylinder_inb answers (by decide) (by decide)).read
  intro _
  refine (readStatusRegister_within answers device reads).bind
    afterPoll_within ?_
  rw [selectionReads]

theorem doIdentifyDevice_within (reads : Nat) :
    Within noCylinder (reads + 5262)
      (doIdentifyDevice (answering answers) reads device) := by
  have ready : Within noCylinder 1 (getDrdy (answering answers)) :=
    inbStatus_within.bind (fun _ => .done) (Nat.le_refl 1)
  rw [doIdentifyDevice_eq]
  refine (doDeviceSelectionProtocol_within answers device).bind ?_
    (by rw [selectionReads]; omega :
      selectionReads + (reads + 3260 + 1) ≤ reads + 5262)
  intro _
  apply ready.read
  intro isReady
  apply Within.ite _ .pure
  apply (Within.outb trivial).seq
  intro _
  apply (Within.wait trivial).seq
  intro _
  exact afterCommand_within reads

/-- The function reads no cylinder register. -/
theorem doIdentifyDevice_position {devices : Nat}
    (position : Position before start devices) :
    ∃ outcome added count,
      Adds (doIdentifyDevice (answering answers) reads device) before outcome
        added ∧
      Position (before ++ added) count devices ∧
      (exit reads (answers.bytes statusRegister) start).Fits outcome
        count := by
  rcases @doIdentifyDevice_leftBy answers reads device _ _ position.status
    with ⟨outcome, added, identifies, fits⟩
  rcases @doIdentifyDevice_within answers device reads before
    with ⟨_, _, same, untouched, _⟩
  rw [← (identifies.unique same).2] at untouched
  have identified := position.append (position_of_noCylinder rfl untouched)
  exact ⟨outcome, added, _, identifies, ⟨rfl, identified.low,
    identified.high⟩, fits⟩

/-- What comes before the type of the device is known. -/
theorem initializeCommon_typed {devices : Nat}
    (position : Position before start devices) (word : Word) :
    ∃ asked, Position (before ++ asked) start (devices + 1) ∧
      ∀ outcome more,
        Adds
          (afterType (answering answers) device reads word
            (getDeviceType (answers.bytes cylinderHighRegister devices)
              (answers.bytes cylinderLowRegister devices)))
          (before ++ asked) outcome more →
        Adds (initializeCommon (answering answers) reads device word) before
          outcome (asked ++ more) := by
  rcases @doSoftReset_adds answers device before
    with ⟨reset, resets, untouched⟩
  have wasReset := position.append untouched
  have low := @Adds.next _ answers _ _ wasReset.low
  have highUnread : (bytesFrom cylinderHighRegister (before ++ reset ++
      [.inb cylinderLowRegister
        (answers.bytes cylinderLowRegister devices)])).length = devices := by
    rw [bytesFrom_append, List.length_append, wasReset.high]
    rfl
  have high := @Adds.next _ answers _ _ highUnread
  have typed := wasReset.append (⟨rfl, rfl, rfl⟩ : Position
    ([.inb cylinderLowRegister (answers.bytes cylinderLowRegister devices)] ++
      [.inb cylinderHighRegister
        (answers.bytes cylinderHighRegister devices)]) 0 1)
  rw [List.append_assoc] at typed
  refine ⟨_, typed, ?_⟩
  intro outcome more rest
  rw [← List.append_assoc, ← List.append_assoc] at rest
  rw [initializeCommon_eq, List.append_assoc, List.append_assoc]
  exact resets.bind (low.bind (high.bind rest))

theorem initializeCommon_position {devices : Nat}
    (position : Position before start devices) (word : Word) :
    ∃ outcome last added count,
      Adds (initializeCommon (answering answers) reads device word) before
        (outcome, last) added ∧
      Position (before ++ added) count (devices + 1) ∧
      (setup reads answers devices start).Fits outcome count := by
  rcases @initializeCommon_typed answers reads device before start devices
    position word with ⟨asked, typed, rest⟩
  rw [setup]
  by_cases ata : IsAta answers devices
  · rcases @doIdentifyDevice_position answers reads device _ _ _ typed
      with ⟨outcome, added, count, identifies, identified, fits⟩
    have type : getDeviceType (answers.bytes cylinderHighRegister devices)
        (answers.bytes cylinderLowRegister devices) = .ata := if_pos ata
    rw [type] at rest
    refine ⟨outcome, outcome.maxLogicalSectorNum word, asked ++ (added ++ []),
      count, rest _ _ (identifies.bind .pure), ?_, ?_⟩
    · rw [List.append_nil, ← List.append_assoc]
      exact identified
    · rw [if_pos ata]
      exact fits
  · refine ⟨.failed, word, asked ++ [], start, rest _ _ ?_, ?_, ?_⟩
    · rw [IsAta] at ata
      rw [getDeviceType, if_neg ata]
      split
      · exact .pure
      · exact .pure
    · rw [List.append_nil]
      exact typed
    · rw [if_neg ata]
      rfl

/-- Whether `open_ATA_disk` returns. -/
theorem openAtaDisk_isSome_iff (word : Word) :
    ((openAtaDisk (answering answers) reads word).run []).1.isSome = true ↔
      setup reads answers 0 0 ≠ .waits ∧
        ∀ next, setup reads answers 0 0 = .passed next →
          setup reads answers 1 next ≠ .waits := by
  have nothing : Position [] 0 0 := ⟨rfl, rfl, rfl⟩
  rcases @initializeCommon_position answers reads 0 _ _ _ nothing word
    with ⟨master, last, added, count, adds, position, fits⟩
  rw [Adds, List.nil_append] at adds
  rw [openAtaDisk_eq, StateT.run_bind, adds]
  cases ending : setup reads answers 0 0 with
  | waits =>
      rw [ending] at fits
      have waits := returned_eq_none fits
      subst waits
      exact iff_of_false Bool.false_ne_true fun left => left.1 rfl
  | failed =>
      rw [ending] at fits
      have failed := returned_eq_false fits
      subst failed
      apply iff_of_true rfl
      constructor
      · intro impossible
        cases impossible
      · intro next impossible
        cases impossible
  | passed next =>
      rw [ending] at fits
      rcases fits with ⟨isTrue, rfl⟩
      rcases @initializeCommon_position answers reads 1 _ _ _ position last
        with ⟨slave, newest, more, _, slaveAdds, _, slaveFits⟩
      rw [Adds, List.nil_append] at slaveAdds
      change ((afterMaster (answering answers) reads (master, last)).run
        added).1.isSome = true ↔ _
      rw [afterMaster_of_true _ _ isTrue, StateT.run_map, slaveAdds]
      change (opened master (slave, newest)).isSome = true ↔ _
      rw [opened_isSome, slaveFits.left_iff]
      constructor
      · intro left
        constructor
        · intro impossible
          cases impossible
        · intro next passed
          rw [← Exit.passed.inj passed]
          exact left
      · intro left
        exact left.2 count rfl

end Runs

/-! ## Which calls return -/

section Calls

variable {answers : Answers} {reads devices start next : Nat}

/-- The poll behind IDENTIFY DEVICE is not left for this device. -/
def Stuck (answers : Answers) (devices start : Nat) : Prop :=
  IsAta answers devices ∧ Hangs (answers.bytes statusRegister) start

/-- The device is set up, and `next` statuses have been read then. -/
def SetUp (answers : Answers) (devices start next : Nat) : Prop :=
  IsAta answers devices ∧ Passes (answers.bytes statusRegister) start next

/--
Whatever has been read before, the calls of the driver return, with a bounded
number of reads; the poll without a bound may read as often as it needs.
-/
structure Terminates (answers : Answers) (maxLogicalSectorNum : Word) :
    Prop where
  opens : ∃ limit enough, ∀ reads, enough ≤ reads → ∃ opened added,
    Adds (openAtaDisk (answering answers) reads maxLogicalSectorNum) []
      (some opened) added ∧ portReads added ≤ limit
  writes : ∀ maxLogicalSectorNum device sector buf before,
    ∃ status added,
      Adds
        (writeSector (answering answers) maxLogicalSectorNum device sector
          buf)
        before status added ∧ portReads added ≤ 12017
  reads : ∀ maxLogicalSectorNum device sector buf before,
    buf.length = 256 → ∃ returned added,
      Adds
        (readSector (answering answers) maxLogicalSectorNum device sector
          buf)
        before (some returned) added ∧ portReads added ≤ 12273

theorem setup_mono {more : Nat} (enough : reads ≤ more)
    (left : setup reads answers devices start ≠ .waits) :
    setup more answers devices start = setup reads answers devices start := by
  rw [setup] at left
  rw [setup, setup]
  split
  · rename_i ata
    rw [if_pos ata] at left
    exact exit_mono enough left
  · rfl

theorem setup_of_stuck (stuck : Stuck answers devices start) (reads : Nat) :
    setup reads answers devices start = .waits := by
  rw [setup, if_pos stuck.1]
  exact exit_of_hangs stuck.2 reads

theorem setup_of_setUp (setUp : SetUp answers devices start next)
    (reads : Nat) :
    setup reads answers devices start = .waits ∨
      setup reads answers devices start = .passed next := by
  rw [setup, if_pos setUp.1]
  exact exit_of_passes setUp.2 reads

theorem setUp_of_setup
    (passed : setup reads answers devices start = .passed next) :
    SetUp answers devices start next := by
  rw [setup] at passed
  split at passed
  · rename_i ata
    exact ⟨ata, passes_of_exit passed⟩
  · cases passed

theorem exists_setup (moves : ¬Stuck answers devices start) :
    ∃ reads, setup reads answers devices start ≠ .waits := by
  by_cases ata : IsAta answers devices
  · rcases exists_exit fun hangs => moves ⟨ata, hangs⟩
      with ⟨reads, left⟩
    refine ⟨reads, ?_⟩
    rw [setup, if_pos ata]
    exact left
  · refine ⟨0, ?_⟩
    rw [setup, if_neg ata]
    intro impossible
    cases impossible

/-- With enough reads the disk is opened, unless a device is stuck. -/
theorem exists_openAtaDisk_iff (word : Word) :
    (∃ reads, ((openAtaDisk (answering answers) reads word).run
      []).1.isSome = true) ↔
        ¬Stuck answers 0 0 ∧
          ∀ next, SetUp answers 0 0 next → ¬Stuck answers 1 next := by
  simp only [openAtaDisk_isSome_iff]
  constructor
  · rintro ⟨reads, masterLeft, slaveLeft⟩
    constructor
    · intro stuck
      exact masterLeft (setup_of_stuck stuck reads)
    · intro next setUp stuck
      rcases setup_of_setUp setUp reads with waits | passed
      · exact masterLeft waits
      · exact slaveLeft next passed (setup_of_stuck stuck reads)
  · rintro ⟨masterMoves, slaveMoves⟩
    rcases exists_setup masterMoves with ⟨reads, masterLeft⟩
    cases master : setup reads answers 0 0 with
    | waits => exact absurd master masterLeft
    | failed =>
        refine ⟨reads, masterLeft, ?_⟩
        intro next passed
        rw [master] at passed
        cases passed
    | passed next =>
        rcases exists_setup (slaveMoves next (setUp_of_setup master))
          with ⟨further, slaveLeft⟩
        have early := Nat.le_max_left reads further
        have late := Nat.le_max_right reads further
        refine ⟨max reads further, ?_, ?_⟩
        · rw [setup_mono early masterLeft]
          exact masterLeft
        · intro other passed
          rw [setup_mono early masterLeft, master, Exit.passed.injEq]
            at passed
          rw [← passed, setup_mono late slaveLeft]
          exact slaveLeft

/-- Once the disk is opened, a larger number of reads does not matter. -/
theorem opens_iff (word : Word) :
    (∃ limit enough, ∀ reads, enough ≤ reads → ∃ opened added,
      Adds (openAtaDisk (answering answers) reads word) [] (some opened)
        added ∧ portReads added ≤ limit) ↔
      ∃ reads, ((openAtaDisk (answering answers) reads word).run
        []).1.isSome = true := by
  constructor
  · rintro ⟨_, reads, opens⟩
    rcases opens reads (Nat.le_refl reads) with ⟨opened, added, adds, _⟩
    refine ⟨reads, ?_⟩
    rw [Adds] at adds
    rw [adds]
    rfl
  · rintro ⟨enough, isOpen⟩
    rcases Option.isSome_iff_exists.mp isOpen with ⟨opened, returns⟩
    refine ⟨portReads ((openAtaDisk (answering answers) enough word).run
      []).2, enough, ?_⟩
    intro reads larger
    refine ⟨opened, _, ?_, Nat.le_refl _⟩
    rw [Adds, openAtaDisk_continues _ word larger [] isOpen]
    exact Prod.ext returns rfl

end Calls

/--
The calls return exactly when neither the master nor, once the master is set
up, the slave is an ATA device which leaves the poll behind IDENTIFY DEVICE
without ERR and DRQ for ever.
-/
theorem terminates_iff (answers : Answers) (maxLogicalSectorNum : Word) :
    Terminates answers maxLogicalSectorNum ↔
      ¬Stuck answers 0 0 ∧
        ∀ next, SetUp answers 0 0 next → ¬Stuck answers 1 next := by
  rw [← exists_openAtaDisk_iff maxLogicalSectorNum, ← opens_iff]
  constructor
  · exact fun terminates => terminates.opens
  · intro opens
    refine ⟨opens, ?_, ?_⟩
    · intro maxLogicalSectorNum device sector buf before
      rcases writeSector_within answers device maxLogicalSectorNum sector buf
        before with ⟨status, added, adds, _, few⟩
      exact ⟨status, added, adds, few⟩
    · intro maxLogicalSectorNum device sector buf before whole
      rcases readSector_within answers device maxLogicalSectorNum sector
        whole before with ⟨returned, added, adds, _, few⟩
      have isSome := readSector_isSome device (answering answers)
        maxLogicalSectorNum sector whole before
      have value := adds
      rw [Adds] at value
      rw [value] at isSome
      rcases Option.isSome_iff_exists.mp isSome with ⟨result, rfl⟩
      exact ⟨result, added, adds, few⟩

/-- A device which is ready, and never asks for data. -/
def silent : Answers where
  bytes port _ := if port = statusRegister then 0x40#8 else 0#8
  words _ _ := 0#16

/-- It is never opened. -/
theorem silent_not_terminates :
    ¬Terminates silent 0#32 ∧
      ∀ reads, ((openAtaDisk (answering silent) reads 0#32).run []).1 =
        none := by
  have stuck : Stuck silent 0 0 := by
    have undecided : decides 0x40#8 = false := by decide
    refine ⟨⟨rfl, rfl⟩, rfl, 0, ?_, fun _ => undecided⟩
    apply firstWithin_eq_some_iff.mpr
    exact ⟨by decide, rfl, fun _ impossible =>
      absurd impossible (Nat.not_lt_zero _)⟩
  have never (reads : Nat) :
      ((openAtaDisk (answering silent) reads 0#32).run []).1 = none := by
    rw [← Option.not_isSome_iff_eq_none, openAtaDisk_isSome_iff]
    exact fun left => left.1 (setup_of_stuck stuck reads)
  refine ⟨?_, never⟩
  intro terminates
  rcases opens_iff 0#32 |>.mp terminates.opens with ⟨reads, isOpen⟩
  rw [never reads] at isOpen
  cases isOpen

end MagicalOs.Devices.DriverTermination
