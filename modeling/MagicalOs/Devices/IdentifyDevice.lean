import MagicalOs.Devices.AtaTranscripts

/-!
# Which exits of the identification deliver data

`do_identify_device` drops the result of the selection, and a device that is
not ready leads to the same `return true` as one that has delivered its data.
The module says for which answers the function returns true with a filled
buffer, and false in every other case.
-/

namespace MagicalOs.Devices.IdentifyDevice

open MagicalOs.Library.ByteMemory
open MagicalOs.Library.PortBus
open MagicalOs.Library.Transcripts
open MagicalOs.Devices.Ata
open MagicalOs.Devices.AtaTranscripts

/-! ## What a run shows -/

/-- What `do_identify_device` returns, if it returns. -/
def returned : Identify → Option Bool
  | .waits => none
  | .failed => some false
  | .notReady => some true
  | .identified _ => some true

/-- The statuses behind the command, when this is IDENTIFY DEVICE. -/
def noteIdentify (statuses : Option (List Byte)) :
    Access → Option (List Byte)
  | .inb port data =>
      if port = statusRegister then
        statuses.map (· ++ [data])
      else
        statuses
  | .outb data port =>
      if port = commandRegister then
        if data = 0xec#8 then some [] else none
      else
        statuses
  | _ => statuses

/-- The statuses that were read behind IDENTIFY DEVICE. -/
def identifyStatuses (transcript : Transcript) : Option (List Byte) :=
  transcript.foldl noteIdentify none

/-- The last two statuses show ERR = 0 and DRQ = 1, and then no fault. -/
structure ShowsData (statuses earlier : List Byte) (data fault : Byte) :
    Prop where
  eq : statuses = earlier ++ [data, fault]
  noError : isError data = false
  asks : isDrqActive data = true
  noFault : df fault = false

/-- BSY = 0 was seen in one of the statuses up to the one with DRQ. -/
def SawReady (statuses : List Byte) : Prop :=
  ∃ earlier data fault, ShowsData statuses earlier data fault ∧
    ∃ free ∈ earlier ++ [data], bsy free = false

/-- BSY = 0 was seen in the status with DRQ itself. -/
def SawReadyAtOnce (statuses : List Byte) : Prop :=
  ∃ earlier data fault, ShowsData statuses earlier data fault ∧
    bsy data = false

/--
The device was selected, IDENTIFY DEVICE was executed, its statuses were as
they should be, and all its words were stored.
-/
structure Delivered (saw : List Byte → Prop) (answers : Answers)
    (device : Int) (outcome : Identify) (transcript : Transcript) : Prop where
  selected :
    ((doDeviceSelectionProtocol (answering answers) device).run []).1 = true
  executed : ∃ statuses,
    identifyStatuses transcript = some statuses ∧ saw statuses
  stored : ∃ buf, outcome = .identified buf ∧ buf.length = 256 ∧
    wordsFrom dataRegister transcript = buf

/--
The function returns true when the data were delivered only, and false in
every other case.
-/
def RightOutcome (saw : List Byte → Prop) (answers : Answers) (device : Int)
    (outcome : Identify) (transcript : Transcript) : Prop :=
  (returned outcome = some true →
    Delivered saw answers device outcome transcript) ∧
    (¬Delivered saw answers device outcome transcript →
      returned outcome = some false)

/-- With enough reads, the outcome of `do_identify_device` is right. -/
def IdentifiesOnly (saw : List Byte → Prop) (answers : Answers)
    (device : Int) : Prop :=
  ∃ bound, ∀ reads, bound ≤ reads →
    let run := (doIdentifyDevice (answering answers) reads device).run []
    RightOutcome saw answers device run.1 run.2

/-! ## When this is so -/

/-- BSY is clear. -/
def isFree (data : Byte) : Bool := !bsy data

/-- The number of the first status with DRQ or ERR. -/
def DecidesAt (status : Nat → Byte) (index : Nat) : Prop :=
  decides (status index) = true ∧ ∀ before < index,
    decides (status before) = false

/--
The answers for which the function is right: DRDY is set; and BSY stays set,
or a status decides the poll, which has ERR, or is followed by a device fault,
or else belongs to a device that was selected, and has `ready`.
-/
def RightAnswers (ready : Byte → Prop) (answers : Answers) : Prop :=
  drdy (answers.bytes statusRegister 0) = true ∧
    (firstWithin isFree (later (answers.bytes statusRegister) 1) 1000 = none ∨
      ∃ free index,
        firstWithin isFree (later (answers.bytes statusRegister) 1) 1000 =
          some free ∧
        DecidesAt (later (answers.bytes statusRegister) (free + 2)) index ∧
        (isError (answers.bytes statusRegister (free + 2 + index)) = true ∨
          df (answers.bytes statusRegister (free + 2 + index + 1)) = true ∨
          ((selection (answers.bytes alternateStatusRegister)).1 = true ∧
            ready (answers.bytes statusRegister (free + 2 + index)))))

/-! ## The parts of the function -/

section Parts

variable {State : Type} (bus : Bus State)

/-- What becomes of the function behind the label `read_status_register`. -/
def afterPoll : Option Bool → StateM State Identify
  | none => return .waits
  | some false => return .failed
  | some true => do
      let fault ← isDeviceFault bus
      if fault then
        return .failed
      else
        let buf ← inWords bus 256
        return .identified buf

/-- What becomes of the function behind IDENTIFY DEVICE. -/
def afterCommand (reads : Nat) (device : Int) : StateM State Identify := do
  let free ← waitUntilBsyIsZero bus statusRegister
  if free then
    let _ ← bus.inb alternateStatusRegister
    let asked ← readStatusRegister bus device reads
    afterPoll bus asked
  else
    return .failed

theorem doIdentifyDevice_eq (reads : Nat) (device : Int) :
    doIdentifyDevice bus reads device = (do
      let _ ← doDeviceSelectionProtocol bus device
      let ret ← getDrdy bus
      if ret then
        bus.outb 0xec#8 commandRegister
        bus.wait 5
        afterCommand bus reads device
      else
        return .notReady) := by
  unfold doIdentifyDevice afterCommand
  apply bind_congr
  intro _
  apply bind_congr
  intro ret
  cases ret with
  | false => rfl
  | true =>
      apply bind_congr
      intro _
      apply bind_congr
      intro _
      apply bind_congr
      intro free
      cases free with
      | false => rfl
      | true =>
          apply bind_congr
          intro _
          apply bind_congr
          intro asked
          rcases asked with _ | _ | _
          · rfl
          · rfl
          · rfl

end Parts

section Driver

variable {answers : Answers} {reads : Nat} {device : Int}
  {before : Transcript}

/-! ## Behind the command -/

theorem waitUntilBsyIsZero_adds {start : Nat}
    (position : (bytesFrom statusRegister before).length = start) :
    Adds (waitUntilBsyIsZero (answering answers) statusRegister) before
      (firstWithin isFree (later (answers.bytes statusRegister) start)
        1000).isSome
      (answers.reads statusRegister start
        (seen 1000 (firstWithin isFree
          (later (answers.bytes statusRegister) start) 1000))) := by
  unfold waitUntilBsyIsZero
  generalize 1000 = rounds
  exact pollLoop_adds answers isFree statusRegister rounds position

theorem afterCommand_busy
    (position : (bytesFrom statusRegister before).length = 1)
    (busy : firstWithin isFree (later (answers.bytes statusRegister) 1) 1000 =
      none) :
    ∃ added, Adds (afterCommand (answering answers) reads device) before
      .failed added := by
  have waited := @waitUntilBsyIsZero_adds answers before 1 position
  rw [busy] at waited
  exact ⟨_, waited.bind (.iteFalse Bool.false_ne_true .pure)⟩

/-- What is read until the poll ends. -/
def polled (answers : Answers) (reads free : Nat) (alternate : Byte)
    (tail : Transcript) : Transcript :=
  answers.reads statusRegister 1 (free + 1) ++
    ([.inb alternateStatusRegister alternate] ++
      (answers.reads statusRegister (free + 2)
        (seen reads (firstWithin decides
          (later (answers.bytes statusRegister) (free + 2)) reads)) ++ tail))

/-- The statuses of the poll. -/
theorem bytesFrom_polled {free index : Nat} {alternate : Byte}
    {tail : Transcript}
    (tailAside : ∀ access ∈ tail, aside access = true)
    (decided : firstWithin decides
      (later (answers.bytes statusRegister) (free + 2)) reads = some index) :
    bytesFrom statusRegister (polled answers reads free alternate tail) =
      (List.range (free + 1)).map (later (answers.bytes statusRegister) 1) ++
        (List.range (index + 1)).map
          (later (answers.bytes statusRegister) (free + 2)) := by
  rw [polled, decided, seen_some, bytesFrom_append, bytesFrom_append,
    bytesFrom_append, bytesFrom_reads_eq, bytesFrom_reads_eq,
    bytesFrom_status_of_aside tailAside, List.append_nil]
  rfl

/-- The statuses that are read up to the end of the poll. -/
theorem polled_position {sofar tail : Transcript} {free index : Nat}
    (alternate : Byte)
    (position : (bytesFrom statusRegister sofar).length = 1)
    (tailAside : ∀ access ∈ tail, aside access = true)
    (decided : firstWithin decides
      (later (answers.bytes statusRegister) (free + 2)) reads = some index) :
    (bytesFrom statusRegister
      (sofar ++ polled answers reads free alternate tail)).length =
        free + 2 + index + 1 := by
  rw [bytesFrom_append, List.length_append, position,
    bytesFrom_polled tailAside decided]
  simp only [List.length_append, List.length_map, List.length_range]
  omega

theorem wordsFrom_polled {free : Nat} {alternate : Byte} {tail : Transcript}
    (tailAside : ∀ access ∈ tail, aside access = true) :
    wordsFrom dataRegister (polled answers reads free alternate tail) =
      [] := by
  rw [polled, wordsFrom_append, wordsFrom_append, wordsFrom_append,
    wordsFrom_reads, wordsFrom_reads, wordsFrom_of_aside _ tailAside]
  rfl

theorem afterCommand_free {free : Nat}
    (position : (bytesFrom statusRegister before).length = 1)
    (found : firstWithin isFree (later (answers.bytes statusRegister) 1)
      1000 = some free) :
    ∃ alternate tail, (∀ access ∈ tail, aside access = true) ∧
      ∀ outcome more,
        Adds
          (afterPoll (answering answers)
            (pollAnswer reads
              (later (answers.bytes statusRegister) (free + 2))))
          (before ++ polled answers reads free alternate tail) outcome more →
        Adds (afterCommand (answering answers) reads device) before outcome
          (polled answers reads free alternate tail ++ more) := by
  have waited := @waitUntilBsyIsZero_adds answers before 1 position
  rw [found, seen_some] at waited
  have asked := @Adds.inb
    (before ++ answers.reads statusRegister 1 (free + 1)) answers
    alternateStatusRegister
  generalize answers.bytes alternateStatusRegister _ = alternate at asked
  have read : (bytesFrom statusRegister
      (before ++ answers.reads statusRegister 1 (free + 1) ++
        [.inb alternateStatusRegister alternate])).length = free + 2 := by
    rw [bytesFrom_append, bytesFrom_append, List.length_append,
      List.length_append, position, bytesFrom_reads]
    change 1 + (free + 1) + 0 = free + 2
    omega
  rcases readStatusRegister_adds answers device reads read
    with ⟨tail, tailAside, polls⟩
  refine ⟨alternate, tail, tailAside, ?_⟩
  intro outcome more rest
  rw [polled, ← List.append_assoc, ← List.append_assoc] at rest
  rw [polled, List.append_assoc, List.append_assoc]
  exact waited.bind (.iteTrue rfl (asked.bind (polls.bind rest)))

theorem isDeviceFault_adds {start : Nat}
    (position : (bytesFrom statusRegister before).length = start) :
    Adds (isDeviceFault (answering answers)) before
      (df (answers.bytes statusRegister start))
      [.inb statusRegister (answers.bytes statusRegister start)] := by
  have read := @Adds.next before answers statusRegister start position
  exact read.bind .pure

theorem afterPoll_fault {start : Nat}
    (position : (bytesFrom statusRegister before).length = start)
    (fault : df (answers.bytes statusRegister start) = true) :
    ∃ added, Adds (afterPoll (answering answers) (some true)) before .failed
      added := by
  have read := @isDeviceFault_adds answers before start position
  rw [fault] at read
  exact ⟨_, read.bind (.iteTrue rfl .pure)⟩

/-- Without a fault, all the words are stored. -/
theorem afterPoll_data {start : Nat}
    (position : (bytesFrom statusRegister before).length = start)
    (unread : (wordsFrom dataRegister before).length = 0)
    (noFault : df (answers.bytes statusRegister start) = false) :
    Adds (afterPoll (answering answers) (some true)) before
      (.identified
        ((List.range 256).map (later (answers.words dataRegister) 0)))
      ([.inb statusRegister (answers.bytes statusRegister start)] ++
        answers.wordReads dataRegister 0 256) := by
  have read := @isDeviceFault_adds answers before start position
  rw [noFault] at read
  have still : (wordsFrom dataRegister (before ++
      [.inb statusRegister (answers.bytes statusRegister start)])).length =
        0 := by
    rw [wordsFrom_append, List.length_append, unread]
    rfl
  have stored := inWords_adds answers 256 still
  rw [← List.append_nil (answers.wordReads dataRegister 0 256)]
  exact read.bind (.iteFalse Bool.false_ne_true (stored.bind .pure))

/-! ## The whole function -/

/-- Neither a status nor a word has been read so far. -/
structure Fresh (before : Transcript) : Prop where
  status : bytesFrom statusRegister before = []
  alternate : bytesFrom alternateStatusRegister before = []
  words : wordsFrom dataRegister before = []

/-- The operations between DRDY and the poll. -/
def command (answers : Answers) : Transcript :=
  [.inb statusRegister (answers.bytes statusRegister 0),
    .outb 0xec#8 commandRegister, .wait 5]

theorem selected_adds (fresh : Fresh before) :
    ∃ front, (∀ access ∈ front, aside access = true) ∧
      Adds (doDeviceSelectionProtocol (answering answers) device) before
        (selection (answers.bytes alternateStatusRegister)).1 front ∧
      Adds (getDrdy (answering answers)) (before ++ front)
        (drdy (answers.bytes statusRegister 0))
        [.inb statusRegister (answers.bytes statusRegister 0)] := by
  have start : (bytesFrom alternateStatusRegister before).length = 0 :=
    congrArg List.length fresh.alternate
  rcases doDeviceSelectionProtocol_runsAside answers device start
    with ⟨front, selected, _, frontAside⟩
  rw [later_zero] at selected
  refine ⟨front, frontAside, selected, ?_⟩
  have read := @Adds.inb (before ++ front) answers statusRegister
  rw [bytesFrom_append, fresh.status, bytesFrom_status_of_aside frontAside]
    at read
  exact read.bind .pure

/-- Without DRDY the function ends where it would with the data. -/
theorem doIdentifyDevice_notReady (fresh : Fresh before)
    (notReady : drdy (answers.bytes statusRegister 0) = false) :
    ∃ added, wordsFrom dataRegister added = [] ∧
      Adds (doIdentifyDevice (answering answers) reads device) before
        .notReady added := by
  rcases @selected_adds answers device before fresh
    with ⟨front, frontAside, selected, read⟩
  rw [notReady] at read
  rw [doIdentifyDevice_eq]
  refine ⟨_, ?_, selected.bind
    (read.bind (.iteFalse Bool.false_ne_true .pure))⟩
  rw [wordsFrom_append, wordsFrom_of_aside _ frontAside]
  rfl

theorem doIdentifyDevice_commanded (fresh : Fresh before)
    (ready : drdy (answers.bytes statusRegister 0) = true) :
    ∃ front, (∀ access ∈ front, aside access = true) ∧
      ∀ outcome more,
        Adds (afterCommand (answering answers) reads device)
          (before ++ front ++ command answers) outcome more →
        Adds (doIdentifyDevice (answering answers) reads device) before
          outcome (front ++ (command answers ++ more)) := by
  rcases @selected_adds answers device before fresh
    with ⟨front, frontAside, selected, read⟩
  refine ⟨front, frontAside, ?_⟩
  intro outcome more rest
  rw [ready] at read
  rw [doIdentifyDevice_eq]
  have given := @Adds.outb
    (before ++ front ++
      [.inb statusRegister (answers.bytes statusRegister 0)]) answers 0xec#8
        commandRegister
  have waited := @Adds.wait
    (before ++ front ++
      [.inb statusRegister (answers.bytes statusRegister 0)] ++
        [.outb 0xec#8 commandRegister]) answers 5
  have whole : before ++ front ++ command answers =
      before ++ front ++
        [.inb statusRegister (answers.bytes statusRegister 0)] ++
          [.outb 0xec#8 commandRegister] ++ [.wait 5] := by
    rw [command]
    simp
  rw [whole] at rest
  exact selected.bind (read.bind (.iteTrue rfl
    (given.bind (waited.bind rest))))

/-- One status is read until the command is given, and no word. -/
theorem commanded_position {front : Transcript} (fresh : Fresh before)
    (frontAside : ∀ access ∈ front, aside access = true) :
    (bytesFrom statusRegister (before ++ front ++ command answers)).length =
      1 := by
  rw [bytesFrom_append, bytesFrom_append, fresh.status,
    bytesFrom_status_of_aside frontAside]
  rfl

theorem doIdentifyDevice_busy (fresh : Fresh before)
    (ready : drdy (answers.bytes statusRegister 0) = true)
    (busy : firstWithin isFree (later (answers.bytes statusRegister) 1) 1000 =
      none) :
    ∃ added, Adds (doIdentifyDevice (answering answers) reads device) before
      .failed added := by
  rcases @doIdentifyDevice_commanded answers reads device before fresh ready
    with ⟨front, frontAside, adds⟩
  have position := @commanded_position answers before front fresh frontAside
  rcases @afterCommand_busy answers reads device _ position busy
    with ⟨more, rest⟩
  exact ⟨_, adds .failed more rest⟩

section Free

variable {free index : Nat}
  (ready : drdy (answers.bytes statusRegister 0) = true)
  (found : firstWithin isFree (later (answers.bytes statusRegister) 1) 1000 =
    some free)

include ready found

/-- When the device is free, the poll decides. -/
theorem doIdentifyDevice_free (fresh : Fresh before) :
    ∃ front alternate tail, (∀ access ∈ front, aside access = true) ∧
      (∀ access ∈ tail, aside access = true) ∧
      (bytesFrom statusRegister (before ++ front ++ command answers)).length =
        1 ∧
      ∀ outcome more,
        Adds
          (afterPoll (answering answers)
            (pollAnswer reads
              (later (answers.bytes statusRegister) (free + 2))))
          (before ++ front ++ command answers ++
            polled answers reads free alternate tail) outcome more →
        Adds (doIdentifyDevice (answering answers) reads device) before
          outcome
          (front ++ (command answers ++
            (polled answers reads free alternate tail ++ more))) := by
  rcases @doIdentifyDevice_commanded answers reads device before fresh ready
    with ⟨front, frontAside, adds⟩
  have position := @commanded_position answers before front fresh frontAside
  rcases @afterCommand_free answers reads device _ free position found
    with ⟨alternate, tail, tailAside, polls⟩
  refine ⟨front, alternate, tail, frontAside, tailAside, position, ?_⟩
  intro outcome more rest
  exact adds outcome _ (polls outcome more rest)

theorem doIdentifyDevice_waits (fresh : Fresh before)
    (undecided : firstWithin decides
      (later (answers.bytes statusRegister) (free + 2)) reads = none) :
    ∃ added, Adds (doIdentifyDevice (answering answers) reads device) before
      .waits added := by
  rcases @doIdentifyDevice_free answers reads device before free ready found
    fresh with ⟨front, alternate, tail, _, _, _, adds⟩
  rw [pollAnswer, undecided] at adds
  exact ⟨_, adds .waits [] .pure⟩

theorem doIdentifyDevice_error (fresh : Fresh before)
    (decided : firstWithin decides
      (later (answers.bytes statusRegister) (free + 2)) reads = some index)
    (error : isError (answers.bytes statusRegister (free + 2 + index)) =
      true) :
    ∃ added, Adds (doIdentifyDevice (answering answers) reads device) before
      .failed added := by
  rcases @doIdentifyDevice_free answers reads device before free ready found
    fresh with ⟨front, alternate, tail, _, _, _, adds⟩
  rw [pollAnswer, decided, Option.map_some, later, error] at adds
  exact ⟨_, adds .failed [] .pure⟩

theorem doIdentifyDevice_fault (fresh : Fresh before)
    (decided : firstWithin decides
      (later (answers.bytes statusRegister) (free + 2)) reads = some index)
    (noError : isError (answers.bytes statusRegister (free + 2 + index)) =
      false)
    (fault : df (answers.bytes statusRegister (free + 2 + index + 1)) =
      true) :
    ∃ added, Adds (doIdentifyDevice (answering answers) reads device) before
      .failed added := by
  rcases @doIdentifyDevice_free answers reads device before free ready found
    fresh with ⟨front, alternate, tail, _, tailAside, position, adds⟩
  rw [pollAnswer, decided, Option.map_some, later, noError] at adds
  have read := polled_position alternate position tailAside decided
  rcases afterPoll_fault read fault with ⟨more, rest⟩
  exact ⟨_, adds .failed more rest⟩

/-- The one exit which stores the words. -/
theorem doIdentifyDevice_data (fresh : Fresh before)
    (decided : firstWithin decides
      (later (answers.bytes statusRegister) (free + 2)) reads = some index)
    (noError : isError (answers.bytes statusRegister (free + 2 + index)) =
      false)
    (noFault : df (answers.bytes statusRegister (free + 2 + index + 1)) =
      false) :
    ∃ front alternate tail, (∀ access ∈ front, aside access = true) ∧
      (∀ access ∈ tail, aside access = true) ∧
      Adds (doIdentifyDevice (answering answers) reads device) before
        (.identified
          ((List.range 256).map (later (answers.words dataRegister) 0)))
        (front ++ (command answers ++
          (polled answers reads free alternate tail ++
            ([.inb statusRegister
                (answers.bytes statusRegister (free + 2 + index + 1))] ++
              answers.wordReads dataRegister 0 256)))) := by
  rcases @doIdentifyDevice_free answers reads device before free ready found
    fresh with ⟨front, alternate, tail, frontAside, tailAside, position, adds⟩
  rw [pollAnswer, decided, Option.map_some, later, noError] at adds
  have read := polled_position alternate position tailAside decided
  have unread : (wordsFrom dataRegister (before ++ front ++ command answers ++
      polled answers reads free alternate tail)).length = 0 := by
    rw [wordsFrom_append, wordsFrom_append, wordsFrom_append, fresh.words,
      wordsFrom_of_aside _ frontAside, wordsFrom_polled tailAside]
    rfl
  exact ⟨front, alternate, tail, frontAside, tailAside,
    adds _ _ (afterPoll_data read unread noFault)⟩

end Free

/-! ## The statuses behind the command -/

/-- The operation gives no command. -/
def noCommand : Access → Bool
  | .outb _ port => port ≠ commandRegister
  | _ => true

theorem foldl_noteIdentify (statuses : List Byte) {transcript : Transcript}
    (silent : ∀ access ∈ transcript, noCommand access = true) :
    transcript.foldl noteIdentify (some statuses) =
      some (statuses ++ bytesFrom statusRegister transcript) := by
  induction transcript generalizing statuses with
  | nil => exact congrArg some (List.append_nil statuses).symm
  | cons access rest induction =>
      rw [List.forall_mem_cons] at silent
      rw [List.foldl_cons]
      cases access with
      | inb port data =>
          by_cases isStatus : port = statusRegister
          · have noted : noteIdentify (some statuses) (.inb port data) =
                some (statuses ++ [data]) :=
              if_pos isStatus
            have read : bytesFrom statusRegister (.inb port data :: rest) =
                data :: bytesFrom statusRegister rest :=
              List.filterMap_cons_some (if_pos isStatus)
            rw [noted, read, induction _ silent.2, List.append_assoc]
            rfl
          · have noted : noteIdentify (some statuses) (.inb port data) =
                some statuses :=
              if_neg isStatus
            have read : bytesFrom statusRegister (.inb port data :: rest) =
                bytesFrom statusRegister rest :=
              List.filterMap_cons_none (if_neg isStatus)
            rw [noted, read]
            exact induction _ silent.2
      | outb data port =>
          have noted : noteIdentify (some statuses) (.outb data port) =
              some statuses :=
            if_neg (of_decide_eq_true silent.1)
          rw [noted]
          exact induction _ silent.2
      | inw => exact induction _ silent.2
      | outw => exact induction _ silent.2
      | wait => exact induction _ silent.2

theorem foldl_noteIdentify_of_aside {transcript : Transcript}
    (quietly : ∀ access ∈ transcript, aside access = true) :
    transcript.foldl noteIdentify none = none := by
  induction transcript with
  | nil => rfl
  | cons access rest induction =>
      rw [List.forall_mem_cons] at quietly
      have unchanged : noteIdentify none access = none := by
        cases access with
        | inb port data => exact ite_self _
        | outb data port => exact if_neg (of_decide_eq_true quietly.1)
        | inw => rfl
        | outw => rfl
        | wait => rfl
      rw [List.foldl_cons, unchanged]
      exact induction quietly.2

/-- Behind IDENTIFY DEVICE, the statuses are those which are read. -/
theorem identifyStatuses_command {front more : Transcript}
    (frontAside : ∀ access ∈ front, aside access = true)
    (silent : ∀ access ∈ more, noCommand access = true) :
    identifyStatuses (front ++ (command answers ++ more)) =
      some (bytesFrom statusRegister more) := by
  have given : (command answers).foldl noteIdentify none = some [] := rfl
  rw [identifyStatuses, List.foldl_append, List.foldl_append,
    foldl_noteIdentify_of_aside frontAside, given,
    foldl_noteIdentify [] silent]
  rfl

/-- The statuses before the one which decides. -/
def undecided (answers : Answers) (free index : Nat) : List Byte :=
  (List.range (free + 1)).map (later (answers.bytes statusRegister) 1) ++
    (List.range index).map (later (answers.bytes statusRegister) (free + 2))

section Data

variable {free index : Nat} {alternate : Byte} {front tail : Transcript}

/-- The operations behind the command, when the words are stored. -/
def dataTranscript (answers : Answers) (reads free index : Nat)
    (alternate : Byte) (tail : Transcript) : Transcript :=
  polled answers reads free alternate tail ++
    ([.inb statusRegister
        (answers.bytes statusRegister (free + 2 + index + 1))] ++
      answers.wordReads dataRegister 0 256)

theorem bytesFrom_dataTranscript
    (tailAside : ∀ access ∈ tail, aside access = true)
    (decided : firstWithin decides
      (later (answers.bytes statusRegister) (free + 2)) reads = some index) :
    bytesFrom statusRegister
        (dataTranscript answers reads free index alternate tail) =
      undecided answers free index ++
        [answers.bytes statusRegister (free + 2 + index),
          answers.bytes statusRegister (free + 2 + index + 1)] := by
  have last : bytesFrom statusRegister
      [.inb statusRegister
        (answers.bytes statusRegister (free + 2 + index + 1))] =
      [answers.bytes statusRegister (free + 2 + index + 1)] := rfl
  have snoc : (List.range (index + 1)).map
      (later (answers.bytes statusRegister) (free + 2)) =
      (List.range index).map
          (later (answers.bytes statusRegister) (free + 2)) ++
        [answers.bytes statusRegister (free + 2 + index)] := by
    rw [List.range_succ, List.map_append]
    rfl
  rw [dataTranscript, bytesFrom_append, bytesFrom_append,
    bytesFrom_polled tailAside decided, bytesFrom_wordReads, last, snoc,
    undecided]
  simp only [List.append_assoc, List.append_nil, List.cons_append,
    List.nil_append]

theorem dataTranscript_silent
    (tailAside : ∀ access ∈ tail, aside access = true) :
    ∀ access ∈ dataTranscript answers reads free index alternate tail,
      noCommand access = true := by
  intro access member
  simp only [dataTranscript, polled, List.mem_append, List.mem_cons,
    List.not_mem_nil, or_false] at member
  rcases member with (early | rfl | late | behind) | rfl | words
  · rcases List.mem_map.mp early with ⟨_, _, rfl⟩
    rfl
  · rfl
  · rcases List.mem_map.mp late with ⟨_, _, rfl⟩
    rfl
  · have quietly := tailAside access behind
    cases access with
    | outb data port => exact quietly
    | inb => rfl
    | inw => rfl
    | outw => rfl
    | wait => rfl
  · rfl
  · rcases List.mem_map.mp words with ⟨_, _, rfl⟩
    rfl

theorem wordsFrom_data {fault : Byte} (count : Nat)
    (frontAside : ∀ access ∈ front, aside access = true)
    (tailAside : ∀ access ∈ tail, aside access = true) :
    wordsFrom dataRegister
        (front ++ (command answers ++
          (polled answers reads free alternate tail ++
            ([.inb statusRegister fault] ++
              answers.wordReads dataRegister 0 count)))) =
      (List.range count).map (later (answers.words dataRegister) 0) := by
  rw [wordsFrom_append, wordsFrom_append, wordsFrom_append, wordsFrom_append,
    wordsFrom_of_aside _ frontAside, wordsFrom_polled tailAside,
    wordsFrom_wordReads_eq]
  rfl

/-- The data count as delivered if the device was selected. -/
theorem delivered_iff {saw : List Byte → Prop}
    (frontAside : ∀ access ∈ front, aside access = true)
    (tailAside : ∀ access ∈ tail, aside access = true)
    (decided : firstWithin decides
      (later (answers.bytes statusRegister) (free + 2)) reads = some index) :
    Delivered saw answers device
        (.identified
          ((List.range 256).map (later (answers.words dataRegister) 0)))
        (front ++ (command answers ++
          dataTranscript answers reads free index alternate tail)) ↔
      (selection (answers.bytes alternateStatusRegister)).1 = true ∧
        saw (undecided answers free index ++
          [answers.bytes statusRegister (free + 2 + index),
            answers.bytes statusRegister (free + 2 + index + 1)]) := by
  have silent := @dataTranscript_silent answers reads free index alternate
    tail tailAside
  have statuses := @identifyStatuses_command answers front _ frontAside silent
  rw [bytesFrom_dataTranscript tailAside decided] at statuses
  have selects :
      ((doDeviceSelectionProtocol (answering answers) device).run []).1 =
        (selection (answers.bytes alternateStatusRegister)).1 := by
    rcases @doDeviceSelectionProtocol_runsAside answers device [] 0 rfl
      with ⟨_, selects, _⟩
    rw [later_zero, Adds] at selects
    rw [selects]
  constructor
  · rintro ⟨selected, ⟨seen, same, sees⟩, _⟩
    rw [statuses] at same
    cases same
    exact ⟨selects ▸ selected, sees⟩
  · rintro ⟨selected, sees⟩
    refine ⟨selects.trans selected, ⟨_, statuses, sees⟩, _, rfl, ?_, ?_⟩
    · rw [List.length_map, List.length_range]
    · exact wordsFrom_data 256 frontAside tailAside

end Data

/-! ## Which answers are right -/

theorem fresh_nil : Fresh [] :=
  ⟨rfl, rfl, rfl⟩

section Outcomes

variable {saw : List Byte → Prop} {transcript : Transcript}

theorem not_delivered {outcome : Identify}
    (noData : ∀ buf, outcome ≠ .identified buf) :
    ¬Delivered saw answers device outcome transcript := by
  intro delivered
  rcases delivered.stored with ⟨buf, same, _⟩
  exact noData buf same

theorem rightOutcome_failed :
    RightOutcome saw answers device .failed transcript := by
  constructor
  · intro returnsTrue
    cases returnsTrue
  · intro _
    rfl

theorem not_rightOutcome_notReady :
    ¬RightOutcome saw answers device .notReady transcript := by
  intro right
  have noData : ∀ buf, Identify.notReady ≠ .identified buf := fun _ => nofun
  exact not_delivered noData (right.1 rfl)

theorem not_rightOutcome_waits :
    ¬RightOutcome saw answers device .waits transcript := by
  intro right
  have noData : ∀ buf, Identify.waits ≠ .identified buf := fun _ => nofun
  have returnsFalse := right.2 (not_delivered noData)
  cases returnsFalse

theorem rightOutcome_identified_iff (buf : List Half) :
    RightOutcome saw answers device (.identified buf) transcript ↔
      Delivered saw answers device (.identified buf) transcript := by
  constructor
  · exact fun right => right.1 rfl
  · exact fun delivered => ⟨fun _ => delivered, fun absent =>
      absurd delivered absent⟩

/-- A run with enough reads finds the status which decides. -/
theorem DecidesAt.firstWithin {status : Nat → Byte} {index : Nat}
    (decides : DecidesAt status index) (enough : index < reads) :
    Library.Transcripts.firstWithin AtaTranscripts.decides status reads =
      some index :=
  firstWithin_eq_some_iff.mpr ⟨enough, decides.1, decides.2⟩

end Outcomes

/-- Once a status has decided, the rest of the answers is looked at. -/
theorem rightOutcome_iff {saw : List Byte → Prop} {ready : Byte → Prop}
    {free index : Nat}
    (drdySet : drdy (answers.bytes statusRegister 0) = true)
    (found : firstWithin isFree (later (answers.bytes statusRegister) 1)
      1000 = some free)
    (decided : DecidesAt (later (answers.bytes statusRegister) (free + 2))
      index)
    (enough : index < reads)
    (meaning : isError (answers.bytes statusRegister (free + 2 + index)) =
        false →
      df (answers.bytes statusRegister (free + 2 + index + 1)) = false →
      (saw (undecided answers free index ++
        [answers.bytes statusRegister (free + 2 + index),
          answers.bytes statusRegister (free + 2 + index + 1)]) ↔
        ready (answers.bytes statusRegister (free + 2 + index)))) :
    RightOutcome saw answers device
        ((doIdentifyDevice (answering answers) reads device).run []).1
        ((doIdentifyDevice (answering answers) reads device).run []).2 ↔
      isError (answers.bytes statusRegister (free + 2 + index)) = true ∨
        df (answers.bytes statusRegister (free + 2 + index + 1)) = true ∨
        ((selection (answers.bytes alternateStatusRegister)).1 = true ∧
          ready (answers.bytes statusRegister (free + 2 + index))) := by
  have first := decided.firstWithin enough
  cases error : isError (answers.bytes statusRegister (free + 2 + index)) with
  | true =>
      rcases @doIdentifyDevice_error answers reads device [] free index
        drdySet found fresh_nil first error with ⟨added, adds⟩
      rw [adds]
      exact iff_of_true rightOutcome_failed (.inl rfl)
  | false =>
      cases fault : df (answers.bytes statusRegister
          (free + 2 + index + 1)) with
      | true =>
          rcases @doIdentifyDevice_fault answers reads device [] free index
            drdySet found fresh_nil first error fault with ⟨added, adds⟩
          rw [adds]
          exact iff_of_true rightOutcome_failed (.inr (.inl rfl))
      | false =>
          rcases @doIdentifyDevice_data answers reads device [] free index
            drdySet found fresh_nil first error fault
            with ⟨front, alternate, tail, frontAside, tailAside, adds⟩
          rw [adds, List.nil_append]
          simp only [Bool.false_eq_true, false_or]
          rw [rightOutcome_identified_iff, ← meaning error fault]
          exact delivered_iff frontAside tailAside first

/-- The function is right exactly for these answers. -/
theorem identifiesOnly_iff_of {saw : List Byte → Prop} {ready : Byte → Prop}
    (meaning : ∀ free index,
      firstWithin isFree (later (answers.bytes statusRegister) 1) 1000 =
        some free →
      DecidesAt (later (answers.bytes statusRegister) (free + 2)) index →
      isError (answers.bytes statusRegister (free + 2 + index)) = false →
      df (answers.bytes statusRegister (free + 2 + index + 1)) = false →
      (saw (undecided answers free index ++
        [answers.bytes statusRegister (free + 2 + index),
          answers.bytes statusRegister (free + 2 + index + 1)]) ↔
        ready (answers.bytes statusRegister (free + 2 + index)))) :
    IdentifiesOnly saw answers device ↔ RightAnswers ready answers := by
  constructor
  · rintro ⟨bound, right⟩
    have drdySet : drdy (answers.bytes statusRegister 0) = true := by
      by_contra notSet
      rw [Bool.not_eq_true] at notSet
      rcases @doIdentifyDevice_notReady answers bound device [] fresh_nil
        notSet with ⟨added, _, adds⟩
      have now := right bound (Nat.le_refl bound)
      rw [adds] at now
      exact not_rightOutcome_notReady now
    refine ⟨drdySet, ?_⟩
    cases found : firstWithin isFree (later (answers.bytes statusRegister) 1)
        1000 with
    | none => exact .inl rfl
    | some free =>
        apply Or.inr
        by_cases decides :
            ∃ index, DecidesAt
              (later (answers.bytes statusRegister) (free + 2)) index
        · rcases decides with ⟨index, decided⟩
          have now := right (max bound (index + 1)) (Nat.le_max_left _ _)
          have ends := (rightOutcome_iff drdySet found decided
            (Nat.le_max_right bound (index + 1))
            (meaning free index found decided)).mp now
          exact ⟨free, index, rfl, decided, ends⟩
        · have none : firstWithin AtaTranscripts.decides
              (later (answers.bytes statusRegister) (free + 2)) bound =
                none := by
            cases first : firstWithin AtaTranscripts.decides
                (later (answers.bytes statusRegister) (free + 2)) bound with
            | none => rfl
            | some index =>
                have found := firstWithin_eq_some_iff.mp first
                exact absurd ⟨index, found.2⟩ decides
          rcases @doIdentifyDevice_waits answers bound device [] free drdySet
            found fresh_nil none with ⟨added, adds⟩
          have now := right bound (Nat.le_refl bound)
          rw [adds] at now
          exact absurd now not_rightOutcome_waits
  · rintro ⟨drdySet, busy | ⟨free, index, found, decided, ends⟩⟩
    · refine ⟨0, fun reads _ => ?_⟩
      rcases @doIdentifyDevice_busy answers reads device [] fresh_nil drdySet
        busy with ⟨added, adds⟩
      rw [adds]
      exact rightOutcome_failed
    · refine ⟨index + 1, fun reads enough => ?_⟩
      rw [rightOutcome_iff drdySet found decided enough
        (meaning free index found decided)]
      exact ends

/-! ## The capacity -/

/-- Once the device is ready, true is returned with a filled buffer only. -/
theorem doIdentifyDevice_stores (fresh : Fresh before)
    (drdySet : drdy (answers.bytes statusRegister 0) = true) :
    ∃ outcome added,
      Adds (doIdentifyDevice (answering answers) reads device) before outcome
        added ∧
      (returned outcome = some true → ∃ buf, outcome = .identified buf ∧
        buf.length = 256 ∧ wordsFrom dataRegister added = buf) := by
  cases found : firstWithin isFree (later (answers.bytes statusRegister) 1)
      1000 with
  | none =>
      rcases @doIdentifyDevice_busy answers reads device before fresh drdySet
        found with ⟨added, adds⟩
      exact ⟨.failed, added, adds, nofun⟩
  | some free =>
      cases first : firstWithin decides
          (later (answers.bytes statusRegister) (free + 2)) reads with
      | none =>
          rcases @doIdentifyDevice_waits answers reads device before free
            drdySet found fresh first with ⟨added, adds⟩
          exact ⟨.waits, added, adds, nofun⟩
      | some index =>
          cases error : isError
              (answers.bytes statusRegister (free + 2 + index)) with
          | true =>
              rcases @doIdentifyDevice_error answers reads device before free
                index drdySet found fresh first error with ⟨added, adds⟩
              exact ⟨.failed, added, adds, nofun⟩
          | false =>
              cases fault : df (answers.bytes statusRegister
                  (free + 2 + index + 1)) with
              | true =>
                  rcases @doIdentifyDevice_fault answers reads device before
                    free index drdySet found fresh first error fault
                    with ⟨added, adds⟩
                  exact ⟨.failed, added, adds, nofun⟩
              | false =>
                  rcases @doIdentifyDevice_data answers reads device before
                    free index drdySet found fresh first error fault
                    with ⟨front, _, tail, frontAside, tailAside, adds⟩
                  refine ⟨_, _, adds, fun _ => ⟨_, rfl, ?_, ?_⟩⟩
                  · rw [List.length_map, List.length_range]
                  · exact wordsFrom_data 256 frontAside tailAside

/-- `initialize_common` sets the capacity from a filled buffer only. -/
def SetsCapacityFromData (answers : Answers) (device : Int)
    (maxLogicalSectorNum : Word) : Prop :=
  ∀ reads,
    let run :=
      (initializeCommon (answering answers) reads device
        maxLogicalSectorNum).run []
    returned run.1.1 = some true →
      (wordsFrom dataRegister run.2).length = 256 ∧
        run.1.2 = sectorNum (wordsFrom dataRegister run.2)

/-- The operations before the type of the device is known. -/
def resetTranscript (answers : Answers) (device : Int) : Transcript :=
  let head := answers.bytes deviceHeadRegister 0
  [.inb deviceHeadRegister head,
    .outb (if device = 0 then head &&& 0x0f#8 else head ||| 0x10#8)
      deviceHeadRegister,
    .wait 5, .outb 0x08#8 commandRegister, .wait 5,
    .inb cylinderLowRegister (answers.bytes cylinderLowRegister 0),
    .inb cylinderHighRegister (answers.bytes cylinderHighRegister 0)]

theorem resetTranscript_fresh : Fresh (resetTranscript answers device) :=
  ⟨rfl, rfl, rfl⟩

/-- The type decides whether the device is identified. -/
theorem initializeCommon_run (maxLogicalSectorNum : Word) :
    (initializeCommon (answering answers) reads device
        maxLogicalSectorNum).run [] =
      (match getDeviceType (answers.bytes cylinderHighRegister 0)
          (answers.bytes cylinderLowRegister 0) with
        | .ata => do
            let identify ← doIdentifyDevice (answering answers) reads device
            return (identify,
              identify.maxLogicalSectorNum maxLogicalSectorNum)
        | .atapi => return (.failed, maxLogicalSectorNum)
        | .unknown => return (.failed, maxLogicalSectorNum) :
        StateM Transcript (Identify × Word)).run
          (resetTranscript answers device) :=
  rfl

theorem initializeCommon_ata {maxLogicalSectorNum : Word}
    {outcome : Identify} {added : Transcript}
    (ata : answers.bytes cylinderHighRegister 0 = 0x0#8 ∧
      answers.bytes cylinderLowRegister 0 = 0x0#8)
    (adds : Adds (doIdentifyDevice (answering answers) reads device)
      (resetTranscript answers device) outcome added) :
    (initializeCommon (answering answers) reads device
        maxLogicalSectorNum).run [] =
      ((outcome, outcome.maxLogicalSectorNum maxLogicalSectorNum),
        resetTranscript answers device ++ added) := by
  have type : getDeviceType (answers.bytes cylinderHighRegister 0)
      (answers.bytes cylinderLowRegister 0) = .ata := if_pos ata
  have all : Adds
      (do
        let identify ← doIdentifyDevice (answering answers) reads device
        return (identify, identify.maxLogicalSectorNum maxLogicalSectorNum))
      (resetTranscript answers device)
      (outcome, outcome.maxLogicalSectorNum maxLogicalSectorNum)
      (added ++ []) :=
    adds.bind .pure
  rw [Adds, List.append_nil] at all
  rw [initializeCommon_run, type]
  exact all

theorem setsCapacityFromData_iff (maxLogicalSectorNum : Word) :
    SetsCapacityFromData answers device maxLogicalSectorNum ↔
      (answers.bytes cylinderHighRegister 0 = 0x0#8 ∧
        answers.bytes cylinderLowRegister 0 = 0x0#8 →
        drdy (answers.bytes statusRegister 0) = true) := by
  have fresh := @resetTranscript_fresh answers device
  by_cases ata : answers.bytes cylinderHighRegister 0 = 0x0#8 ∧
      answers.bytes cylinderLowRegister 0 = 0x0#8
  · constructor
    · intro sets _
      by_contra notSet
      rw [Bool.not_eq_true] at notSet
      rcases @doIdentifyDevice_notReady answers 0 device _ fresh notSet
        with ⟨added, unread, adds⟩
      have now := sets 0
      rw [initializeCommon_ata ata adds] at now
      have filled := (now rfl).1
      rw [wordsFrom_append, fresh.words, unread] at filled
      cases filled
    · intro ready reads
      rcases @doIdentifyDevice_stores answers reads device _ fresh (ready ata)
        with ⟨outcome, added, adds, stores⟩
      rw [initializeCommon_ata ata adds]
      dsimp only
      intro returnsTrue
      rcases stores returnsTrue with ⟨buf, rfl, length, words⟩
      rw [wordsFrom_append, fresh.words, List.nil_append, words]
      exact ⟨length, rfl⟩
  · apply iff_of_true
    · intro reads
      rw [initializeCommon_run]
      cases type : getDeviceType (answers.bytes cylinderHighRegister 0)
          (answers.bytes cylinderLowRegister 0) with
      | ata =>
          rw [getDeviceType, if_neg ata] at type
          split at type
          · cases type
          · cases type
      | atapi => exact nofun
      | unknown => exact nofun
    · exact fun isAta => absurd isAta ata

end Driver

/-! ## Where BSY is seen -/

section Readings

variable {answers : Answers} {device : Int} {free index : Nat}

theorem asks_of_decidesAt
    (decided : DecidesAt (later (answers.bytes statusRegister) (free + 2))
      index)
    (noError : isError (answers.bytes statusRegister (free + 2 + index)) =
      false) :
    isDrqActive (answers.bytes statusRegister (free + 2 + index)) = true := by
  have ends := decided.1
  rw [later, decides, noError] at ends
  exact ends

/-- The wait has seen BSY = 0. -/
theorem sawReady_iff :
    IdentifiesOnly SawReady answers device ↔
      RightAnswers (fun _ => True) answers := by
  apply identifiesOnly_iff_of
  intro free index found decided noError noFault
  have isFreeNow := (firstWithin_eq_some_iff.mp found).2.1
  rw [isFree, Bool.not_eq_true'] at isFreeNow
  apply iff_of_true
  · refine ⟨_, _, _,
      ⟨rfl, noError, asks_of_decidesAt decided noError, noFault⟩,
      later (answers.bytes statusRegister) 1 free, ?_, isFreeNow⟩
    apply List.mem_append_left
    apply List.mem_append_left
    exact List.mem_map_of_mem (List.mem_range.mpr (Nat.lt_succ_self free))
  · trivial

/-- Nothing is known of BSY in the status which decides. -/
theorem sawReadyAtOnce_iff :
    IdentifiesOnly SawReadyAtOnce answers device ↔
      RightAnswers (fun data => bsy data = false) answers := by
  apply identifiesOnly_iff_of
  intro free index found decided noError noFault
  constructor
  · rintro ⟨earlier, data, fault, shows, isFreeNow⟩
    rcases List.append_inj' shows.eq rfl with ⟨_, pair⟩
    cases pair
    exact isFreeNow
  · intro isFreeNow
    exact ⟨_, _, _,
      ⟨rfl, noError, asks_of_decidesAt decided noError, noFault⟩, isFreeNow⟩

end Readings

/--
The exits which return true deliver the data, and the others return false,
exactly for the answers given here; and the capacity comes from data exactly
when an ATA device has set DRDY.
-/
theorem doIdentifyDevice_right_iff (answers : Answers) (device : Int)
    (maxLogicalSectorNum : Word) :
    (IdentifiesOnly SawReady answers device ↔
      RightAnswers (fun _ => True) answers) ∧
      (IdentifiesOnly SawReadyAtOnce answers device ↔
        RightAnswers (fun data => bsy data = false) answers) ∧
      (SetsCapacityFromData answers device maxLogicalSectorNum ↔
        (answers.bytes cylinderHighRegister 0 = 0x0#8 ∧
          answers.bytes cylinderLowRegister 0 = 0x0#8 →
          drdy (answers.bytes statusRegister 0) = true)) :=
  ⟨sawReady_iff, sawReadyAtOnce_iff,
    setsCapacityFromData_iff maxLogicalSectorNum⟩

/-- An absent slave, whose registers read as zero. -/
def absent : Answers where
  bytes _ _ := 0#8
  words _ _ := 0#16

/-- It counts as identified, and the capacity is taken from an empty buffer. -/
theorem absent_identified :
    ¬IdentifiesOnly SawReady absent 1 ∧
      ¬IdentifiesOnly SawReadyAtOnce absent 1 ∧
      ¬SetsCapacityFromData absent 1 100#32 := by
  have notReady : drdy (absent.bytes statusRegister 0) = false := by
    decide
  refine ⟨?_, ?_, ?_⟩
  · intro right
    have drdySet := (sawReady_iff.mp right).1
    rw [notReady] at drdySet
    cases drdySet
  · intro right
    have drdySet := (sawReadyAtOnce_iff.mp right).1
    rw [notReady] at drdySet
    cases drdySet
  · intro sets
    have drdySet := (setsCapacityFromData_iff 100#32).mp sets ⟨rfl, rfl⟩
    rw [notReady] at drdySet
    cases drdySet

end MagicalOs.Devices.IdentifyDevice
