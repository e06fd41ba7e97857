import MagicalOs.Devices.AtaDevice
import MagicalOs.Devices.AtaTranscripts
import Mathlib.Data.List.TakeWhile

/-!
# When sectors are transferred

`sector_rw_common` takes the first status with DRQ and without ERR for the
permission to transfer, though both bits mean nothing while BSY is set.
`write_sector` then reads the status once more before it sends the words, and
never after them.
-/

namespace MagicalOs.Devices.SectorTransfers

open MagicalOs.Library.ByteMemory
open MagicalOs.Library.PortBus
open MagicalOs.Library.Transcripts
open MagicalOs.Devices.Ata
open MagicalOs.Devices.AtaDevice
open MagicalOs.Devices.AtaTranscripts

/-! ## Transfers and the status before them -/

/-- A word of data is received or sent. -/
def isTransfer : Access → Bool
  | .inw _ _ => true
  | .outw _ _ => true
  | _ => false

/-- A command makes the statuses before it void. -/
def noteStatus (last : Option (Option Byte)) :
    Access → Option (Option Byte)
  | .inb port data =>
      if port = statusRegister then last.map fun _ => some data else last
  | .outb _ port => if port = commandRegister then some none else last
  | _ => last

/-- The status that is read last behind the command. -/
def lastStatus (transcript : Transcript) : Option Byte :=
  (transcript.foldl noteStatus none).join

/-- The operations before the first transfer. -/
def beforeTransfers (transcript : Transcript) : Transcript :=
  transcript.takeWhile fun access => !isTransfer access

/--
The status before the first transfer asks for data; otherwise nothing is
transferred, and the function has failed.
-/
def TransfersSafely (transcript : Transcript) (failed : Prop) : Prop :=
  (∃ data, lastStatus (beforeTransfers transcript) = some data ∧
    AsksForData data) ∨
    ((∀ access ∈ transcript, isTransfer access = false) ∧ failed)

section Transfers

variable {transcript first second : Transcript}

theorem isTransfer_of_aside {access : Access}
    (quietly : aside access = true) : isTransfer access = false := by
  cases access with
  | inb => rfl
  | outb => rfl
  | inw => cases quietly
  | outw => cases quietly
  | wait => rfl

theorem noteStatus_of_aside {access : Access} (last : Option (Option Byte))
    (quietly : aside access = true) : noteStatus last access = last := by
  cases access with
  | inb port data => exact if_neg (of_decide_eq_true quietly)
  | outb data port => exact if_neg (of_decide_eq_true quietly)
  | inw => rfl
  | outw => rfl
  | wait => rfl

theorem foldl_noteStatus_of_aside (last : Option (Option Byte))
    (quietly : ∀ access ∈ transcript, aside access = true) :
    transcript.foldl noteStatus last = last := by
  induction transcript with
  | nil => rfl
  | cons access rest induction =>
      rw [List.forall_mem_cons] at quietly
      rw [List.foldl_cons, noteStatus_of_aside last quietly.1]
      exact induction quietly.2

/-- Nothing behind the first transfer matters. -/
theorem beforeTransfers_append
    (silent : ∀ access ∈ first, isTransfer access = false) :
    beforeTransfers (first ++ second) =
      first ++ beforeTransfers second := by
  apply List.takeWhile_append_of_pos
  intro access member
  rw [silent access member]
  rfl

theorem wordsFrom_of_noTransfer (port : Half)
    (silent : ∀ access ∈ transcript, isTransfer access = false) :
    wordsFrom port transcript = [] := by
  apply List.filterMap_eq_nil_iff.mpr
  intro access member
  have noTransfer := silent access member
  cases access with
  | inb => rfl
  | outb => rfl
  | inw => cases noTransfer
  | outw => rfl
  | wait => rfl

theorem wordsTo_of_noTransfer (port : Half)
    (silent : ∀ access ∈ transcript, isTransfer access = false) :
    wordsTo port transcript = [] := by
  apply List.filterMap_eq_nil_iff.mpr
  intro access member
  have noTransfer := silent access member
  cases access with
  | inb => rfl
  | outb => rfl
  | inw => rfl
  | outw => cases noTransfer
  | wait => rfl

end Transfers

/-! ## A command that is accepted -/

/--
The driver takes this status for the permission to transfer a sector: the
sector is in range, the device is ready in time, and of the seven statuses
behind the command it is the first with DRQ or ERR, and has no ERR.
-/
structure Accepted (answers : Answers) (maxLogicalSectorNum sector : Word)
    (index : Nat) : Prop where
  inRange : ¬maxLogicalSectorNum < sector
  ready : becomesReady (answers.bytes alternateStatusRegister) = true
  first : firstWithin decides (answers.bytes statusRegister) 7 = some index
  noError : isError (answers.bytes statusRegister index) = false

section Driver

variable {answers : Answers} {maxLogicalSectorNum sector : Word}
  {cmd : Byte} {device : Int} {index count : Nat}

theorem asks_of_accepted
    (accepted : Accepted answers maxLogicalSectorNum sector index) :
    isDrqActive (answers.bytes statusRegister index) = true := by
  have decided := (firstWithin_eq_some_iff.mp accepted.first).2.1
  rw [decides, accepted.noError] at decided
  exact decided

theorem foldl_noteStatus_reads (last : Option Byte) :
    (answers.reads statusRegister 0 (count + 1)).foldl noteStatus
        (some last) =
      some (some (answers.bytes statusRegister count)) := by
  induction count with
  | zero => rfl
  | succ count induction =>
      rw [reads_snoc, List.foldl_append, induction, Nat.zero_add]
      rfl

section Command

variable {front asked tail : Transcript}
  (frontAside : ∀ access ∈ front, aside access = true)
  (askedAside : ∀ access ∈ asked, aside access = true)
  (tailAside : ∀ access ∈ tail, aside access = true)

include frontAside askedAside tailAside

/-- Before and behind a command, the driver transfers nothing. -/
theorem command_silent :
    ∀ access ∈ front ++ .outb cmd commandRegister ::
      (asked ++ (answers.reads statusRegister 0 count ++ tail)),
      isTransfer access = false := by
  intro access member
  simp only [List.mem_append, List.mem_cons] at member
  rcases member with inFront | rfl | inAsked | inReads | inTail
  · exact isTransfer_of_aside (frontAside access inFront)
  · rfl
  · exact isTransfer_of_aside (askedAside access inAsked)
  · rcases List.mem_map.mp inReads with ⟨_, _, rfl⟩
    rfl
  · exact isTransfer_of_aside (tailAside access inTail)

theorem command_bytesFrom :
    (bytesFrom statusRegister (front ++ .outb cmd commandRegister ::
      (asked ++ (answers.reads statusRegister 0 count ++ tail)))).length =
      count := by
  have given : bytesFrom statusRegister
      (.outb cmd commandRegister ::
        (asked ++ (answers.reads statusRegister 0 count ++ tail))) =
      bytesFrom statusRegister
        (asked ++ (answers.reads statusRegister 0 count ++ tail)) := rfl
  rw [bytesFrom_append, given, bytesFrom_append, bytesFrom_append,
    bytesFrom_status_of_aside frontAside,
    bytesFrom_status_of_aside askedAside,
    bytesFrom_status_of_aside tailAside]
  simp

/-- The last status behind the command is the last one of the poll. -/
theorem command_lastStatus :
    lastStatus (front ++ .outb cmd commandRegister ::
      (asked ++ (answers.reads statusRegister 0 (count + 1) ++ tail))) =
      some (answers.bytes statusRegister count) := by
  rw [lastStatus, List.foldl_append, List.foldl_cons, List.foldl_append,
    List.foldl_append, foldl_noteStatus_of_aside none frontAside,
    noteStatus, if_pos rfl, foldl_noteStatus_of_aside _ askedAside,
    foldl_noteStatus_reads, foldl_noteStatus_of_aside _ tailAside]
  rfl

end Command

/-- What `sector_rw_common` leaves behind when it returns true. -/
structure Commanded (answers : Answers) (index : Nat) (common : Transcript) :
    Prop where
  silent : ∀ access ∈ common, isTransfer access = false
  status : lastStatus common = some (answers.bytes statusRegister index)
  read : (bytesFrom statusRegister common).length = index + 1

theorem sectorRwCommon_accepted
    (accepted : Accepted answers maxLogicalSectorNum sector index) :
    ∃ common,
      Adds
        (sectorRwCommon (answering answers) maxLogicalSectorNum cmd device
          sector)
        [] true common ∧ Commanded answers index common := by
  rcases @sectorRwCommon_commanded answers maxLogicalSectorNum sector cmd
    device accepted.inRange accepted.ready
    with ⟨front, asked, tail, frontAside, askedAside, tailAside, adds⟩
  have returned : asksWithin 7 (answers.bytes statusRegister) = true := by
    rw [asksWithin, pollAnswer, accepted.first, Option.map_some,
      accepted.noError]
    rfl
  rw [returned, accepted.first, seen_some] at adds
  refine ⟨_, adds, ?_, ?_, ?_⟩
  · exact command_silent frontAside askedAside tailAside
  · exact command_lastStatus frontAside askedAside tailAside
  · exact command_bytesFrom frontAside askedAside tailAside

/-- Without such a status it returns false, and transfers nothing. -/
theorem sectorRwCommon_rejected
    (rejected : ∀ index,
      ¬Accepted answers maxLogicalSectorNum sector index) :
    ∃ common,
      Adds
        (sectorRwCommon (answering answers) maxLogicalSectorNum cmd device
          sector)
        [] false common ∧ ∀ access ∈ common, isTransfer access = false := by
  by_cases refused : maxLogicalSectorNum < sector ∨
      becomesReady (answers.bytes alternateStatusRegister) = false
  · rcases @sectorRwCommon_refused answers maxLogicalSectorNum sector cmd
      device refused with ⟨_, added, adds, _, quietly⟩
    exact ⟨added, adds, fun access member =>
      isTransfer_of_aside (quietly access member)⟩
  · rw [not_or, Bool.not_eq_false] at refused
    rcases @sectorRwCommon_commanded answers maxLogicalSectorNum sector cmd
      device refused.1 refused.2
      with ⟨front, asked, tail, frontAside, askedAside, tailAside, adds⟩
    have returned : asksWithin 7 (answers.bytes statusRegister) = false := by
      rw [asksWithin, pollAnswer]
      cases first : firstWithin decides (answers.bytes statusRegister) 7 with
      | none => rfl
      | some index =>
          cases error : isError (answers.bytes statusRegister index) with
          | true => simp [error]
          | false =>
              exact absurd ⟨refused.1, refused.2, first, error⟩
                (rejected index)
    rw [returned] at adds
    exact ⟨_, adds, command_silent frontAside askedAside tailAside⟩

/-! ## The two functions -/

/-- The words are received right behind the status. -/
theorem readSector_accepted (buf : Sector)
    (accepted : Accepted answers maxLogicalSectorNum sector index) :
    ∃ common rest, Commanded answers index common ∧
      Adds
        (readSector (answering answers) maxLogicalSectorNum device sector
          buf.words)
        []
        (some (0, (List.range buf.words.length).map
          (later (answers.words dataRegister) 0)))
        (common ++
          (answers.wordReads dataRegister 0 buf.words.length ++ rest)) := by
  rcases @sectorRwCommon_accepted answers maxLogicalSectorNum sector
    pioSectorReadCmd device index accepted with ⟨common, adds, commanded⟩
  have unread : (wordsFrom dataRegister ([] ++ common)).length = 0 := by
    rw [List.nil_append, wordsFrom_of_noTransfer _ commanded.silent]
    rfl
  have received := inWords_adds answers buf.words.length unread
  have read : (bytesFrom statusRegister ([] ++ common ++
      answers.wordReads dataRegister 0 buf.words.length)).length =
        index + 1 := by
    rw [List.nil_append, bytesFrom_append, bytesFrom_wordReads,
      List.append_nil]
    exact commanded.read
  rcases finishSectorRw_adds answers read with ⟨data, finished⟩
  have length : ¬buf.words.length ≠ 256 := not_not.mpr buf.length
  exact ⟨common, _, commanded, .iteFalse length
    (adds.bind (.iteTrue rfl (received.bind (finished.bind .pure))))⟩

theorem readSector_rejected (buf : Sector)
    (rejected : ∀ index,
      ¬Accepted answers maxLogicalSectorNum sector index) :
    ∃ common, (∀ access ∈ common, isTransfer access = false) ∧
      Adds
        (readSector (answering answers) maxLogicalSectorNum device sector
          buf.words)
        [] (some (-1, buf.words)) common := by
  rcases @sectorRwCommon_rejected answers maxLogicalSectorNum sector
    pioSectorReadCmd device rejected with ⟨common, adds, silent⟩
  refine ⟨common, silent, ?_⟩
  unfold readSector
  have length : ¬buf.words.length ≠ 256 := not_not.mpr buf.length
  rw [← List.append_nil common]
  exact .iteFalse length (adds.bind (.iteFalse Bool.false_ne_true .pure))

/-- The words are sent behind one more status. -/
theorem writeSector_accepted (buf : List Half)
    (accepted : Accepted answers maxLogicalSectorNum sector index) :
    ∃ common data, Commanded answers index common ∧
      Adds
        (writeSector (answering answers) maxLogicalSectorNum device sector buf)
        [] 0
        (common ++
          ([.inb alternateStatusRegister data,
            .inb statusRegister (answers.bytes statusRegister (index + 1))] ++
              buf.map fun word => .outw word dataRegister)) := by
  rcases @sectorRwCommon_accepted answers maxLogicalSectorNum sector
    pioSectorWriteCmd device index accepted with ⟨common, adds, commanded⟩
  have read : (bytesFrom statusRegister ([] ++ common)).length =
      index + 1 := commanded.read
  rcases finishSectorRw_adds answers read with ⟨data, finished⟩
  refine ⟨common, data, commanded, ?_⟩
  unfold writeSector
  rw [← List.append_nil (buf.map fun word => Access.outw word dataRegister)]
  exact adds.bind (.iteTrue rfl (finished.bind
    ((outWords_adds answers buf _).bind .pure)))

theorem writeSector_rejected (buf : List Half)
    (rejected : ∀ index,
      ¬Accepted answers maxLogicalSectorNum sector index) :
    ∃ common, (∀ access ∈ common, isTransfer access = false) ∧
      Adds
        (writeSector (answering answers) maxLogicalSectorNum device sector buf)
        [] (-1) common := by
  rcases @sectorRwCommon_rejected answers maxLogicalSectorNum sector
    pioSectorWriteCmd device rejected with ⟨common, adds, silent⟩
  refine ⟨common, silent, ?_⟩
  unfold writeSector
  rw [← List.append_nil common]
  exact adds.bind (.iteFalse Bool.false_ne_true .pure)

/-! ## Whether the device is ready for the transfer -/

/-- `read_sector` receives words when the status asks for it only. -/
def ReadsSafely (answers : Answers) (maxLogicalSectorNum : Word)
    (device : Int) (sector : Word) (buf : Sector) : Prop :=
  let run :=
    (readSector (answering answers) maxLogicalSectorNum device sector
      buf.words).run []
  TransfersSafely run.2 (∃ ret < 0, run.1 = some (ret, buf.words))

/-- `write_sector` starts to send words when the status asks for it only. -/
def WritesSafely (answers : Answers) (maxLogicalSectorNum : Word)
    (device : Int) (sector : Word) (buf : List Half) : Prop :=
  let run :=
    (writeSector (answering answers) maxLogicalSectorNum device sector
      buf).run []
  TransfersSafely run.2 (run.1 < 0)

theorem Accepted.unique {other : Nat}
    (accepted : Accepted answers maxLogicalSectorNum sector index)
    (another : Accepted answers maxLogicalSectorNum sector other) :
    other = index :=
  Option.some.inj (another.first.symm.trans accepted.first)

/-- A function which has succeeded needs the status. -/
theorem transfersSafely_iff {front rest : Transcript} {failed : Prop}
    {data : Byte} (silent : ∀ access ∈ front, isTransfer access = false)
    (transfers : beforeTransfers rest = [])
    (status : lastStatus front = some data) (succeeds : ¬failed) :
    TransfersSafely (front ++ rest) failed ↔ AsksForData data := by
  rw [TransfersSafely, beforeTransfers_append silent, transfers,
    List.append_nil, status]
  constructor
  · rintro (⟨_, same, asks⟩ | ⟨_, fails⟩)
    · cases same
      exact asks
    · exact absurd fails succeeds
  · intro asks
    exact .inl ⟨data, rfl, asks⟩

theorem finished_silent {front : Transcript}
    (silent : ∀ access ∈ front, isTransfer access = false)
    (alternate data : Byte) :
    ∀ access ∈ front ++ [.inb alternateStatusRegister alternate,
      .inb statusRegister data], isTransfer access = false := by
  intro access member
  simp only [List.mem_append, List.mem_cons, List.not_mem_nil, or_false]
    at member
  rcases member with inFront | rfl | rfl
  · exact silent access inFront
  · rfl
  · rfl

/-- The status that `finish_sector_rw` reads is the last one. -/
theorem finished_lastStatus {front : Transcript} {last : Byte}
    (status : lastStatus front = some last) (alternate data : Byte) :
    lastStatus (front ++ [.inb alternateStatusRegister alternate,
      .inb statusRegister data]) = some data := by
  rw [lastStatus, Option.join_eq_some_iff] at status
  rw [lastStatus, List.foldl_append, status]
  rfl

theorem readsSafely_iff (buf : Sector) :
    ReadsSafely answers maxLogicalSectorNum device sector buf ↔
      ∀ index, Accepted answers maxLogicalSectorNum sector index →
        bsy (answers.bytes statusRegister index) = false := by
  rw [ReadsSafely]
  by_cases asked : ∃ index, Accepted answers maxLogicalSectorNum sector index
  · rcases asked with ⟨index, accepted⟩
    rcases @readSector_accepted answers maxLogicalSectorNum sector device
      index buf accepted with ⟨common, rest, commanded, adds⟩
    have received : beforeTransfers
        (answers.wordReads dataRegister 0 buf.words.length ++ rest) = [] := by
      rw [buf.length, wordReads_succ]
      rfl
    have succeeds : ∀ words, ¬∃ ret < 0,
        some ((0 : Int), words) = some (ret, buf.words) := by
      rintro words ⟨ret, negative, same⟩
      cases same
      exact absurd negative (Int.lt_irrefl 0)
    rw [adds]
    simp only [List.nil_append]
    rw [transfersSafely_iff commanded.silent received commanded.status
      (succeeds _)]
    constructor
    · intro asks other another
      rw [accepted.unique another]
      exact asks.free
    · intro free
      exact ⟨free index accepted, asks_of_accepted accepted,
        accepted.noError⟩
  · rw [not_exists] at asked
    rcases @readSector_rejected answers maxLogicalSectorNum sector device buf
      asked with ⟨common, silent, adds⟩
    rw [adds]
    apply iff_of_true
    · exact .inr ⟨silent, -1, by decide, rfl⟩
    · intro index accepted
      exact absurd accepted (asked index)

theorem writesSafely_iff (buf : List Half) :
    WritesSafely answers maxLogicalSectorNum device sector buf ↔
      ∀ index, Accepted answers maxLogicalSectorNum sector index →
        AsksForData (answers.bytes statusRegister (index + 1)) := by
  rw [WritesSafely]
  by_cases asked : ∃ index, Accepted answers maxLogicalSectorNum sector index
  · rcases asked with ⟨index, accepted⟩
    rcases @writeSector_accepted answers maxLogicalSectorNum sector device
      index buf accepted with ⟨common, data, commanded, adds⟩
    have silent := finished_silent commanded.silent data
      (answers.bytes statusRegister (index + 1))
    have status := finished_lastStatus commanded.status data
      (answers.bytes statusRegister (index + 1))
    have sent : beforeTransfers
        (buf.map fun word => Access.outw word dataRegister) = [] := by
      cases buf with
      | nil => rfl
      | cons word rest => rfl
    rw [adds, List.nil_append, ← List.append_assoc]
    simp only
    rw [transfersSafely_iff silent sent status (Int.lt_irrefl 0)]
    constructor
    · intro asks other another
      rw [accepted.unique another]
      exact asks
    · exact fun asks => asks index accepted
  · rw [not_exists] at asked
    rcases @writeSector_rejected answers maxLogicalSectorNum sector device buf
      asked with ⟨common, silent, adds⟩
    rw [adds]
    apply iff_of_true
    · exact .inr ⟨silent, Int.negSucc_lt_zero 0⟩
    · intro index accepted
      exact absurd accepted (asked index)

end Driver

/--
A read is safe exactly when the status which is accepted has no BSY, and a
write when the status behind it, which is not looked at, asks for data.
-/
theorem transfers_safely_iff (answers : Answers)
    (maxLogicalSectorNum sector : Word) (device : Int) (buf : Sector)
    (out : List Half) :
    (ReadsSafely answers maxLogicalSectorNum device sector buf ↔
      ∀ index, Accepted answers maxLogicalSectorNum sector index →
        bsy (answers.bytes statusRegister index) = false) ∧
      (WritesSafely answers maxLogicalSectorNum device sector out ↔
        ∀ index, Accepted answers maxLogicalSectorNum sector index →
          AsksForData (answers.bytes statusRegister (index + 1))) :=
  ⟨readsSafely_iff buf, writesSafely_iff out⟩

/-- A device which is quiet, and whose status is always the same. -/
def steady (status : Byte) : Answers where
  bytes port _ := if port = statusRegister then status else 0x50#8
  words _ _ := 0#16

/-- A device which is quiet and asks for data at once is accepted. -/
theorem accepted_of_quiet {answers : Answers}
    {maxLogicalSectorNum sector : Word}
    (inRange : ¬maxLogicalSectorNum < sector)
    (quietly : ∀ index,
      quiet (answers.bytes alternateStatusRegister index) = true)
    (asks : isDrqActive (answers.bytes statusRegister 0) = true)
    (noError : isError (answers.bytes statusRegister 0) = false) :
    Accepted answers maxLogicalSectorNum sector 0 where
  inRange := inRange
  ready := becomesReady_of_quiet quietly
  first := by
    apply firstWithin_eq_some_iff.mpr
    refine ⟨by decide, ?_, fun _ impossible =>
      absurd impossible (Nat.not_lt_zero _)⟩
    rw [decides, noError, asks]
    rfl
  noError := noError

theorem steady_accepted :
    Accepted (steady 0x88#8) 100#32 5#32 0 := by
  apply accepted_of_quiet
  · decide
  · intro _
    change quiet 0x50#8 = true
    decide
  · decide
  · decide

/-- The words of an empty sector. -/
def zeroSector : Sector where
  words := List.replicate 256 0#16
  length := List.length_replicate

/-- While BSY is set, both functions transfer a sector all the same. -/
theorem steady_not_safely :
    ¬ReadsSafely (steady 0x88#8) 100#32 0 5#32 zeroSector ∧
      ¬WritesSafely (steady 0x88#8) 100#32 0 5#32 zeroSector.words := by
  have accepted := steady_accepted
  constructor
  · intro safely
    have free := (readsSafely_iff zeroSector).mp safely 0 accepted
    exact absurd free (by decide)
  · intro safely
    have asks := (writesSafely_iff zeroSector.words).mp safely 0 accepted
    exact absurd asks.free (by decide)

/-! ## Whether a failed write is reported -/

/-- The status which the device presents behind the transcript. -/
def presented (answers : Answers) (transcript : Transcript) : Byte :=
  (((answering answers).inb statusRegister).run transcript).1

/-- A whole sector was sent, and the device presents neither ERR nor DF. -/
structure Completed (answers : Answers) (transcript : Transcript) : Prop where
  sent : (wordsTo dataRegister transcript).length = 256
  noError : isError (presented answers transcript) = false
  noFault : df (presented answers transcript) = false

/-- `write_sector` returns 0 for a completed write only. -/
def ReportsFailure (answers : Answers) (maxLogicalSectorNum : Word)
    (device : Int) (sector : Word) (buf : List Half) : Prop :=
  let run :=
    (writeSector (answering answers) maxLogicalSectorNum device sector
      buf).run []
  (run.1 = 0 → Completed answers run.2) ∧
    (¬Completed answers run.2 → run.1 < 0)

section Reports

variable {answers : Answers} {maxLogicalSectorNum sector : Word}
  {device : Int} {index : Nat} {buf : List Half}

theorem wordsTo_map (buf : List Half) :
    wordsTo dataRegister (buf.map fun word => .outw word dataRegister) =
      buf := by
  induction buf with
  | nil => rfl
  | cons word buf induction =>
      have sent : wordsTo dataRegister ((word :: buf).map fun word =>
          .outw word dataRegister) =
          word :: wordsTo dataRegister (buf.map fun word =>
            .outw word dataRegister) := rfl
      rw [sent, induction]

theorem bytesFrom_map (port : Half) (buf : List Half) :
    bytesFrom port (buf.map fun word => .outw word dataRegister) = [] := by
  induction buf with
  | nil => rfl
  | cons word buf induction => exact induction

/-- Behind an accepted write, the device presents a status nobody reads. -/
theorem completed_iff {common : Transcript} (alternate data : Byte)
    (commanded : Commanded answers index common) :
    Completed answers
        (common ++
          ([.inb alternateStatusRegister alternate,
            .inb statusRegister data] ++
              buf.map fun word => .outw word dataRegister)) ↔
      buf.length = 256 ∧
        isError (answers.bytes statusRegister (index + 2)) = false ∧
        df (answers.bytes statusRegister (index + 2)) = false := by
  have sent : wordsTo dataRegister
      (common ++
        ([.inb alternateStatusRegister alternate, .inb statusRegister data] ++
          buf.map fun word => .outw word dataRegister)) = buf := by
    rw [wordsTo_append, wordsTo_append, wordsTo_map,
      wordsTo_of_noTransfer dataRegister commanded.silent]
    rfl
  have read : (bytesFrom statusRegister
      (common ++
        ([.inb alternateStatusRegister alternate, .inb statusRegister data] ++
          buf.map fun word => .outw word dataRegister))).length =
        index + 2 := by
    rw [bytesFrom_append, bytesFrom_append, bytesFrom_map, List.append_nil,
      List.length_append, commanded.read]
    rfl
  have status : presented answers
      (common ++
        ([.inb alternateStatusRegister alternate, .inb statusRegister data] ++
          buf.map fun word => .outw word dataRegister)) =
        answers.bytes statusRegister (index + 2) :=
    congrArg (answers.bytes statusRegister) read
  constructor
  · rintro ⟨whole, noError, noFault⟩
    rw [sent] at whole
    rw [status] at noError noFault
    exact ⟨whole, noError, noFault⟩
  · rintro ⟨whole, noError, noFault⟩
    rw [← sent] at whole
    rw [← status] at noError noFault
    exact ⟨whole, noError, noFault⟩

/-- Nothing is reported that shows behind the words only. -/
theorem reportsFailure_iff (answers : Answers)
    (maxLogicalSectorNum sector : Word) (device : Int) (buf : List Half) :
    ReportsFailure answers maxLogicalSectorNum device sector buf ↔
      ∀ index, Accepted answers maxLogicalSectorNum sector index →
        buf.length = 256 ∧
          isError (answers.bytes statusRegister (index + 2)) = false ∧
          df (answers.bytes statusRegister (index + 2)) = false := by
  rw [ReportsFailure]
  by_cases asked : ∃ index, Accepted answers maxLogicalSectorNum sector index
  · rcases asked with ⟨index, accepted⟩
    rcases @writeSector_accepted answers maxLogicalSectorNum sector device
      index buf accepted with ⟨common, data, commanded, adds⟩
    rw [adds, List.nil_append]
    simp only
    rw [completed_iff data _ commanded]
    constructor
    · intro reports other another
      rw [accepted.unique another]
      exact reports.1 trivial
    · intro completes
      have completed := completes index accepted
      exact ⟨fun _ => completed, fun fails => absurd completed fails⟩
  · rw [not_exists] at asked
    rcases @writeSector_rejected answers maxLogicalSectorNum sector device buf
      asked with ⟨common, _, adds⟩
    rw [adds]
    apply iff_of_true
    · constructor
      · intro succeeds
        cases succeeds
      · intro _
        exact Int.negSucc_lt_zero 0
    · intro index accepted
      exact absurd accepted (asked index)

end Reports

/-- A quiet device which takes a write and presents ERR and DF behind it. -/
def failing : Answers where
  bytes port index :=
    if port = statusRegister then
      if index < 2 then 0x58#8 else 0x71#8
    else
      0x50#8
  words _ _ := 0#16

/-- The write has failed, and is reported as a success. -/
theorem failing_not_reported :
    ¬ReportsFailure failing 100#32 0 5#32 zeroSector.words := by
  have accepted : Accepted failing 100#32 5#32 0 := by
    apply accepted_of_quiet
    · decide
    · intro _
      change quiet 0x50#8 = true
      decide
    · decide
    · decide
  rcases @writeSector_accepted failing 100#32 5#32 0 0 zeroSector.words
    accepted with ⟨common, data, commanded, adds⟩
  intro reports
  rw [ReportsFailure, adds, List.nil_append] at reports
  have completed := (completed_iff data _ commanded).mp (reports.1 rfl)
  exact absurd completed.2.1 (by decide)

end MagicalOs.Devices.SectorTransfers
