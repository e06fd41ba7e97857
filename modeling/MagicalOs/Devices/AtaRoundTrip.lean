import MagicalOs.Devices.AtaDevice
import Mathlib.Data.List.GetD

/-!
# Writing a sector and reading it back

What the functions of the driver do to a conforming device 0, as pre- and
postconditions on its view.  Every function may give up; what it promises is
promised for the case in which it reports success.
-/

namespace MagicalOs.Devices.AtaRoundTrip

open MagicalOs.Library.ByteMemory
open MagicalOs.Library.Triples
open MagicalOs.Devices.Ata
open MagicalOs.Devices.AtaDevice

section Driver

variable {State : Type} (device : Device State)
  {content : BitVec 28 → Sector} {file : TaskFile} {sector : Word}

/-! ## Selection -/

/-- The sectors of the device. -/
def Holds (content : BitVec 28 → Sector) (state : State) : Prop :=
  (device.view state).content = content

/-- The device is selected and idle. -/
def Ready (content : BitVec 28 → Sector) (state : State) : Prop :=
  (device.view state).taskFile.dev = false ∧
    (device.view state).phase = .idle ∧ Holds device content state

/-- A status read changes at most the phase. -/
theorem status_frame {port : Half} (isStatus : IsStatusPort port) :
    Triple
      (fun state => (device.view state).taskFile = file ∧
        Holds device content state)
      (device.inb port)
      (fun data state => (device.view state).taskFile = file ∧
        Holds device content state ∧
        (bsy data = false → drq data = false → file.dev = false →
          (device.view state).phase = .idle)) := by
  rintro state ⟨rfl, holds⟩
  by_cases other : (device.view state).taskFile.dev = true
  · rw [device.statusOther state port isStatus other]
    refine ⟨rfl, ?_, ?_⟩
    · rw [Holds, device.statusOther state port isStatus other]
      exact holds
    · intro _ _ selected
      rw [other] at selected
      cases selected
  · rw [Bool.not_eq_true] at other
    rcases device.status state port isStatus other with ⟨phase, step, after⟩
    rw [Holds, after]
    exact ⟨rfl, holds, fun free quiet _ => step.idle_of_quiet free quiet⟩

theorem waitUntilBsyAndDrqAreZero_triple {port : Half}
    (isStatus : IsStatusPort port) :
    Triple
      (fun state => (device.view state).taskFile = file ∧
        Holds device content state)
      (waitUntilBsyAndDrqAreZero device.toBus port)
      (fun ok state => (device.view state).taskFile = file ∧
        Holds device content state ∧
        (ok = true → file.dev = false →
          (device.view state).phase = .idle)) := by
  rw [waitUntilBsyAndDrqAreZero]
  generalize 1000 = rounds
  induction rounds with
  | zero =>
      apply Triple.pure
      rintro state ⟨sameFile, holds⟩
      exact ⟨sameFile, holds, fun absent => nomatch absent⟩
  | succ rounds hypothesis =>
      refine Triple.bind (status_frame device isStatus) fun data => ?_
      refine Triple.ite ?_ ?_
      · intro quiet
        apply Triple.pure
        rintro state ⟨sameFile, holds, idle⟩
        simp only [Bool.and_eq_true, Bool.not_eq_true'] at quiet
        exact ⟨sameFile, holds, fun _ => idle quiet.1 quiet.2⟩
      · intro _
        refine hypothesis.weaken ?_ (fun _ _ after => after)
        rintro state ⟨sameFile, holds, _⟩
        exact ⟨sameFile, holds⟩

/-- An operation that the device does not notice. -/
theorem keep {Value : Type} {program : StateM State Value}
    (same : ∀ state, device.view (program.run state).2 = device.view state)
    (fact : View → Prop) :
    Triple (fun state => fact (device.view state)) program
      (fun _ state => fact (device.view state)) := by
  intro state holds
  rw [same state]
  exact holds

/-- Clearing the high half of DEVICE/HEAD selects device 0. -/
theorem dev_write_masked (file : TaskFile) (data : Byte) :
    (file.write (data &&& 0x0f#8) deviceHeadRegister).dev = false := by
  change (data &&& 0x0f#8).getLsbD 4 = false
  simp

theorem setDeviceNumber_triple :
    Triple
      (fun state => Holds device content state ∧
        ((device.view state).taskFile.dev = false →
          (device.view state).phase = .idle))
      (setDeviceNumber device.toBus 0)
      (fun _ state => Holds device content state ∧
        (device.view state).taskFile.dev = false) := by
  have isTaskFile : IsTaskFilePort deviceHeadRegister :=
    .inr (.inr (.inr (.inr rfl)))
  refine Triple.bind (keep device device.readDeviceHead fun view =>
    view.content = content ∧ (view.taskFile.dev = false →
      view.phase = .idle)) fun data => ?_
  refine Triple.seq _ ?_ (keep device (fun state => device.passTime state 5)
    fun view => view.content = content ∧ view.taskFile.dev = false)
  rintro state ⟨holds, idle⟩
  rw [if_pos rfl, device.writeTaskFile state _ _ isTaskFile idle]
  exact ⟨holds, dev_write_masked _ data⟩

theorem alternateStatus_isStatus : IsStatusPort alternateStatusRegister :=
  .inr rfl

/-- The selection protocol succeeds with device 0 selected and idle. -/
theorem doDeviceSelectionProtocol_triple :
    Triple (Holds device content) (doDeviceSelectionProtocol device.toBus 0)
      (fun ok state => Holds device content state ∧
        (ok = true → Ready device content state)) := by
  intro start holds
  suffices program : Triple
      (fun state => (device.view state).taskFile =
        (device.view start).taskFile ∧ Holds device content state)
      (doDeviceSelectionProtocol device.toBus 0)
      (fun ok state => Holds device content state ∧
        (ok = true → Ready device content state)) from
    program start ⟨rfl, holds⟩
  generalize (device.view start).taskFile = file
  refine Triple.bind
    (waitUntilBsyAndDrqAreZero_triple device alternateStatus_isStatus)
    fun free => ?_
  refine Triple.ite ?_ ?_
  · intro isFree
    refine Triple.seq (fun state => Holds device content state ∧
      (device.view state).taskFile.dev = false) ?_ ?_
    · refine (setDeviceNumber_triple device).weaken ?_ (fun _ _ after => after)
      rintro state ⟨rfl, holds, idle⟩
      exact ⟨holds, idle isFree⟩
    refine Triple.seq _ (keep device (fun state => device.passTime state 2)
      fun view => view.content = content ∧ view.taskFile.dev = false) ?_
    rintro state ⟨holds, selected⟩
    rcases waitUntilBsyAndDrqAreZero_triple device alternateStatus_isStatus
      state ⟨rfl, holds⟩ with ⟨sameFile, stillHolds, idle⟩
    refine ⟨stillHolds, fun ok => ⟨?_, idle ok selected, stillHolds⟩⟩
    rw [sameFile]
    exact selected
  · intro _
    apply Triple.pure
    rintro state ⟨_, holds, _⟩
    exact ⟨holds, fun absent => nomatch absent⟩

theorem waitUntilDeviceIsReady_triple :
    Triple (Holds device content) (waitUntilDeviceIsReady device.toBus 0)
      (fun ok state => ok = true → Ready device content state) := by
  rw [waitUntilDeviceIsReady]
  generalize 5 = rounds
  induction rounds with
  | zero =>
      apply Triple.pure
      intro state _ absent
      cases absent
  | succ rounds hypothesis =>
      refine Triple.bind (doDeviceSelectionProtocol_triple device)
        fun ready => ?_
      refine Triple.ite ?_ ?_
      · intro isReady
        apply Triple.pure
        rintro state ⟨_, succeeds⟩ _
        exact succeeds isReady
      · intro _
        refine Triple.seq (Holds device content) ?_ hypothesis
        refine (keep device (fun state => device.passTime state 5)
          fun view => view.content = content).weaken ?_ (fun _ _ after => after)
        rintro state ⟨holds, _⟩
        exact holds

/-! ## The command -/

/-- A write to the task file of an idle device. -/
theorem outb_triple {value : Byte} {port : Half}
    (isTaskFile : IsTaskFilePort port) :
    Triple
      (fun state => device.view state =
        { taskFile := file, phase := .idle, content })
      (device.outb value port)
      (fun _ state => device.view state =
        { taskFile := file.write value port, phase := .idle, content }) := by
  intro state viewEq
  rw [device.writeTaskFile state value port isTaskFile
    (fun _ => by rw [viewEq]), viewEq]

theorem setSector_triple :
    Triple (Ready device content) (setSector device.toBus sector)
      (fun _ state => device.view state =
        { taskFile := sectorFile sector, phase := .idle, content }) := by
  rintro start ⟨selected, idle, holds⟩
  suffices program : Triple
      (fun state => device.view state =
        { taskFile := (device.view start).taskFile, phase := .idle, content })
      (setSector device.toBus sector)
      (fun _ state => device.view state =
        { taskFile := sectorFile sector, phase := .idle, content }) by
    apply program start
    rw [← idle, ← holds]
  generalize (device.view start).taskFile = file
  refine Triple.seq (fun state => device.view state =
    { taskFile := file, phase := .idle, content }) ?_ ?_
  · intro state viewEq
    rw [device.writeControl state (by rw [viewEq]), viewEq]
  refine Triple.seq (fun state => device.view state =
    { taskFile := file, phase := .idle, content }) ?_ ?_
  · intro state viewEq
    rw [device.writeFeatures state (by rw [viewEq]), viewEq]
  refine Triple.seq _ (outb_triple device (.inr (.inl rfl))) ?_
  refine Triple.seq _ (outb_triple device (.inr (.inr (.inl rfl)))) ?_
  refine Triple.seq _ (outb_triple device (.inr (.inr (.inr (.inl rfl))))) ?_
  refine Triple.seq _ (outb_triple device (.inr (.inr (.inr (.inr rfl))))) ?_
  exact outb_triple device (.inl rfl)

/-! ## The data -/

/-- The device waits to make its offer, makes it, or has refused. -/
def Awaiting (file : TaskFile) (asked ready : Phase)
    (content : BitVec 28 → Sector) (state : State) : Prop :=
  ∃ phase, (phase = asked ∨ phase = ready ∨ phase = .idle) ∧
    device.view state = { taskFile := file, phase, content }

section Offer

variable {asked ready : Phase}

/-- A status that asks for data ends the waiting. -/
theorem awaiting_status (offers : Offers device.capacity asked ready)
    (selected : file.dev = false) {port : Half}
    (isStatus : IsStatusPort port) :
    Triple (Awaiting device file asked ready content) (device.inb port)
      (fun data state => Awaiting device file asked ready content state ∧
        (drq data = true → device.view state =
          { taskFile := file, phase := ready, content })) := by
  rintro state ⟨phase, phases, viewEq⟩
  have stillSelected : (device.view state).taskFile.dev = false := by
    rw [viewEq]
    exact selected
  rcases device.status state port isStatus stillSelected with
    ⟨next, step, after⟩
  rw [viewEq] at step after
  rcases offers phase _ next phases step with ⟨nexts, asks⟩
  refine ⟨⟨next, nexts, after⟩, fun drqSet => ?_⟩
  rw [after, asks drqSet]

theorem readStatusRegisterAgain_triple
    (offers : Offers device.capacity asked ready)
    (selected : file.dev = false) (reads : Nat) :
    Triple (Awaiting device file asked ready content)
      (readStatusRegisterAgain device.toBus 0 reads)
      (fun ok state => ok = true → device.view state =
        { taskFile := file, phase := ready, content }) := by
  induction reads with
  | zero =>
      apply Triple.pure
      intro state _ absent
      cases absent
  | succ reads hypothesis =>
      refine Triple.bind
        (awaiting_status device offers selected (.inl rfl)) fun status => ?_
      refine Triple.ite ?_ ?_
      · intro _
        refine Triple.seq _ (Triple.any _) ?_
        apply Triple.pure
        intro state _ absent
        cases absent
      intro _
      refine Triple.ite ?_ ?_
      · intro active
        apply Triple.pure
        rintro state ⟨_, asks⟩ _
        exact asks active
      · intro _
        refine hypothesis.weaken ?_ (fun _ _ after => after)
        exact fun state both => both.1

/-- A command that device 0 understands, and how it answers to it. -/
structure Command (cmd : Byte) (sector : Word) (asked ready : Phase) :
    Prop where
  offers : Offers device.capacity asked ready
  starts : ∀ state content, device.view state =
      { taskFile := sectorFile sector, phase := .idle, content } →
    device.view ((device.outb cmd commandRegister).run state).2 =
      { taskFile := sectorFile sector, phase := asked, content }

theorem command_read (selected : (sectorFile sector).dev = false) :
    Command device pioSectorReadCmd sector
      (.readCommand (sectorFile sector).lba)
      (.reading (sectorFile sector).lba 0) where
  offers := offers_read
  starts := by
    intro state content viewEq
    have taken := device.command state
    rw [viewEq] at taken
    exact (taken selected rfl sectorFile_lbaMode rfl).1

theorem command_write (selected : (sectorFile sector).dev = false) :
    Command device pioSectorWriteCmd sector
      (.writeCommand (sectorFile sector).lba)
      (.writing (sectorFile sector).lba []) where
  offers := offers_write
  starts := by
    intro state content viewEq
    have taken := device.command state
    rw [viewEq] at taken
    exact (taken selected rfl sectorFile_lbaMode rfl).2

/-- `sector_rw_common` succeeds with the device ready for the data. -/
theorem sectorRwCommon_triple {cmd : Byte} {maxLogicalSectorNum : Word}
    (bounded : maxLogicalSectorNum.toNat < 2 ^ 28)
    (command : sector.toNat < 2 ^ 28 →
      Command device cmd sector asked ready) :
    Triple (Holds device content)
      (sectorRwCommon device.toBus maxLogicalSectorNum cmd 0 sector)
      (fun ok state => ok = true → sector.toNat < 2 ^ 28 ∧
        device.view state =
          { taskFile := sectorFile sector, phase := ready, content }) := by
  refine Triple.ite ?_ ?_
  · intro _
    apply Triple.pure
    intro state _ absent
    cases absent
  intro accepted
  have small : sector.toNat < 2 ^ 28 := by
    rw [BitVec.lt_def] at accepted
    omega
  have selected := dev_of_lt small
  rcases command small with ⟨offers, starts⟩
  refine Triple.bind (waitUntilDeviceIsReady_triple device) fun b => ?_
  refine Triple.ite ?_ ?_
  · intro isReady
    refine Triple.weaken ?_ (fun state succeeds => succeeds isReady)
      (fun _ _ after => after)
    refine Triple.seq _ (setSector_triple device) ?_
    refine Triple.seq (Awaiting device (sectorFile sector) asked ready content)
      ?_ ?_
    · intro state viewEq
      exact ⟨asked, .inl rfl, starts state content viewEq⟩
    refine Triple.seq _ (keep device (fun state => device.passTime state 4)
      fun view => ∃ phase, (phase = asked ∨ phase = ready ∨ phase = .idle) ∧
        view = { taskFile := sectorFile sector, phase, content }) ?_
    refine Triple.bind (awaiting_status device offers selected
      alternateStatus_isStatus) fun _ => ?_
    refine (readStatusRegisterAgain_triple device offers selected 7).weaken
      (fun state both => both.1) ?_
    exact fun ok state after succeeds => ⟨small, after succeeds⟩
  · intro _
    apply Triple.pure
    intro state _ absent
    cases absent

end Offer

/-- Between the words of a sector the statuses tell nothing new. -/
theorem finishSectorRw_triple {lba : BitVec 28} {received : List Half}
    (selected : file.dev = false) :
    Triple
      (fun state => device.view state =
        { taskFile := file, phase := .writing lba received, content })
      (finishSectorRw device.toBus)
      (fun _ state => device.view state =
        { taskFile := file, phase := .writing lba received, content }) := by
  have keeps : ∀ port, IsStatusPort port → Triple
      (fun state => device.view state =
        { taskFile := file, phase := .writing lba received, content })
      (device.inb port)
      (fun _ state => device.view state =
        { taskFile := file, phase := .writing lba received, content }) := by
    intro port isStatus state viewEq
    have stillSelected : (device.view state).taskFile.dev = false := by
      rw [viewEq]
      exact selected
    rcases device.status state port isStatus stillSelected with
      ⟨next, step, after⟩
    rw [viewEq] at step after
    rw [after]
    cases step with
    | working working => exact working.elim
    | writing => rfl
  refine Triple.bind (keeps _ alternateStatus_isStatus) fun _ => ?_
  refine Triple.bind (keeps _ (.inl rfl)) fun _ => ?_
  exact Triple.pure fun _ viewEq => viewEq

theorem finishSectorRw_frame :
    Triple
      (fun state => (device.view state).taskFile = file ∧
        Holds device content state)
      (finishSectorRw device.toBus) (fun _ => Holds device content) := by
  have reads : ∀ port, IsStatusPort port → Triple
      (fun state => (device.view state).taskFile = file ∧
        Holds device content state)
      (device.inb port)
      (fun _ state => (device.view state).taskFile = file ∧
        Holds device content state) :=
    fun port isStatus => (status_frame device isStatus).weaken
      (fun _ before => before) (fun _ _ after => ⟨after.1, after.2.1⟩)
  refine Triple.bind (reads _ alternateStatus_isStatus) fun _ => ?_
  refine Triple.bind (reads _ (.inl rfl)) fun _ => ?_
  exact Triple.pure fun _ both => both.2

/-- The sectors after one of them has been filled. -/
def fill (content : BitVec 28 → Sector) (lba : BitVec 28) (sector : Sector) :
    BitVec 28 → Sector :=
  fun other => if other = lba then sector else content other

/-- The last of 256 words fills the sector. -/
theorem outWords_triple {lba : BitVec 28} {received : List Half}
    (selected : file.dev = false) (buf : List Half) (some : buf ≠ [])
    (full : (received ++ buf).length = 256) :
    Triple
      (fun state => device.view state =
        { taskFile := file, phase := .writing lba received, content })
      (outWords device.toBus buf)
      (fun _ => Holds device (fill content lba ⟨received ++ buf, full⟩)) := by
  induction buf generalizing received with
  | nil => exact absurd rfl some
  | cons word buf hypothesis =>
      rw [List.length_append, List.length_cons] at full
      cases buf with
      | nil =>
          have last : (received ++ [word]).length = 256 := by
            rw [List.length_append]
            exact full
          refine Triple.seq _ ?_ (Triple.pure fun _ holds => holds)
          intro state viewEq
          have taken := device.receiveWord state lba received word
          rw [viewEq] at taken
          rw [Holds, taken selected rfl (by simp at full; omega),
            View.received, dif_pos last]
          rfl
      | cons second buf =>
          have next : ¬(received ++ [word]).length = 256 := by
            rw [List.length_append]
            simp at full ⊢
            omega
          have rest : (received ++ [word] ++ second :: buf).length = 256 := by
            simp at full ⊢
            omega
          refine Triple.seq (fun state => device.view state =
            { taskFile := file, phase := .writing lba (received ++ [word]),
              content }) ?_ ?_
          · intro state viewEq
            have taken := device.receiveWord state lba received word
            rw [viewEq] at taken
            rw [taken selected rfl (by simp at full; omega), View.received,
              dif_neg next]
          · have later := hypothesis (by simp) rest
            simpa using later

/-- What is known of a device while its sector is read. -/
def Sends (file : TaskFile) (lba : BitVec 28) (content : BitVec 28 → Sector)
    (size sent : Nat) (state : State) : Prop :=
  ∃ phase, (0 < size → phase = .reading lba sent) ∧
    device.view state = { taskFile := file, phase, content }

theorem inw_triple {lba : BitVec 28} {size sent : Nat}
    (selected : file.dev = false) (total : sent + (size + 1) = 256) :
    Triple (Sends device file lba content (size + 1) sent)
      (device.inw dataRegister)
      (fun word state => word = (content lba).words.getD sent 0#16 ∧
        Sends device file lba content size (sent + 1) state) := by
  rintro state ⟨phase, reading, viewEq⟩
  rw [reading (by omega)] at viewEq
  have taken := device.sendWord state lba sent
  rw [viewEq] at taken
  rcases taken selected rfl (by omega) with ⟨value, after⟩
  refine ⟨value, _, ?_, after⟩
  intro more
  exact if_neg (by omega)

/-- The words that are read are those of the sector. -/
theorem inWords_triple {lba : BitVec 28} (selected : file.dev = false)
    (size sent : Nat) (total : sent + size = 256) :
    Triple (Sends device file lba content size sent)
      (inWords device.toBus size)
      (fun words state => words = (content lba).words.drop sent ∧
        (device.view state).taskFile = file ∧ Holds device content state) := by
  have length := (content lba).length
  induction size generalizing sent with
  | zero =>
      apply Triple.pure
      rintro state ⟨phase, _, viewEq⟩
      rw [List.drop_eq_nil_of_le (by omega), Holds, viewEq]
      exact ⟨rfl, rfl, rfl⟩
  | succ size hypothesis =>
      have inside : sent < (content lba).words.length := by
        omega
      refine Triple.bind (inw_triple device selected total) fun word => ?_
      refine Triple.assume fun wordEq => ?_
      refine Triple.bind (hypothesis (sent + 1) (by omega)) fun words => ?_
      apply Triple.pure
      rintro state ⟨wordsEq, frame⟩
      refine ⟨?_, frame⟩
      rw [wordEq, wordsEq, List.getD_eq_getElem _ _ inside]
      exact (List.drop_eq_getElem_cons inside).symm

/-! ## The two functions -/

/-- A write that succeeds has filled the sector. -/
theorem writeSector_triple {maxLogicalSectorNum : Word} (buf : Sector)
    (bounded : maxLogicalSectorNum.toNat < 2 ^ 28) :
    Triple (Holds device content)
      (writeSector device.toBus maxLogicalSectorNum 0 sector buf.words)
      (fun ret state => ret = 0 → sector.toNat < 2 ^ 28 ∧
        Holds device (fill content (sectorFile sector).lba buf) state) := by
  have some : buf.words ≠ [] := by
    intro empty
    have length := buf.length
    rw [empty] at length
    cases length
  refine Triple.bind (sectorRwCommon_triple device bounded fun small =>
    command_write device (dev_of_lt small)) fun ret => ?_
  refine Triple.ite ?_ ?_
  · intro succeeds
    refine Triple.weaken (Triple.assume fun small => ?_)
      (fun state after => after succeeds) (fun _ _ after => after)
    have selected := dev_of_lt small
    refine Triple.seq _ (finishSectorRw_triple device selected) ?_
    have full : ([] ++ buf.words).length = 256 :=
      buf.length
    have words : Triple
        (fun state => device.view state =
          { taskFile := sectorFile sector
            phase := .writing (sectorFile sector).lba []
            content })
        (outWords device.toBus buf.words)
        (fun _ => Holds device (fill content (sectorFile sector).lba buf)) :=
      outWords_triple device selected buf.words some full
    refine Triple.seq _ words ?_
    exact Triple.pure fun _ holds _ => ⟨small, holds⟩
  · intro _
    apply Triple.pure
    intro state _ absent
    cases absent

/-- A read that succeeds returns the sector and changes nothing. -/
theorem readSector_triple {maxLogicalSectorNum : Word} (buf : Sector)
    (bounded : maxLogicalSectorNum.toNat < 2 ^ 28) :
    Triple (Holds device content)
      (readSector device.toBus maxLogicalSectorNum 0 sector buf.words)
      (fun result state => ∀ words, result = some (0, words) →
        words = (content (sectorFile sector).lba).words ∧
          Holds device content state) := by
  refine Triple.ite ?_ ?_
  · intro wrongSize
    exact absurd buf.length wrongSize
  intro _
  refine Triple.bind (sectorRwCommon_triple device bounded fun small =>
    command_read device (dev_of_lt small)) fun ret => ?_
  refine Triple.ite ?_ ?_
  · intro succeeds
    refine Triple.weaken (Triple.assume fun small => ?_)
      (fun state after => after succeeds) (fun _ _ after => after)
    have selected := dev_of_lt small
    refine Triple.weaken ?_
      (fun state viewEq => (⟨_, fun _ => rfl, viewEq⟩ :
        Sends device (sectorFile sector) (sectorFile sector).lba content
          buf.words.length 0 state))
      (fun _ _ after => after)
    refine Triple.bind
      (inWords_triple device selected buf.words.length 0 (by simp [buf.length]))
      fun words => ?_
    refine Triple.assume fun wordsEq => ?_
    refine Triple.seq _ (finishSectorRw_frame device) ?_
    apply Triple.pure
    rintro state holds other same
    cases same
    exact ⟨wordsEq, holds⟩
  · intro _
    apply Triple.pure
    intro state _ words absent
    cases absent

/-- `write_sector` on device 0 and then `read_sector`, with what they return. -/
def writeThenRead (maxLogicalSectorNum sector : Word) (buf buf2 : Sector) :
    StateM State (Int × Option (Int × List Half)) := do
  let written ←
    writeSector device.toBus maxLogicalSectorNum 0 sector buf.words
  let read ←
    readSector device.toBus maxLogicalSectorNum 0 sector buf2.words
  return (written, read)

end Driver

/--
A sector that has been written is read back, and no other sector has changed.
The bound of the driver is a number of sectors that LBA28 devices can report.
-/
theorem writeThenRead_sound {State : Type} (device : Device State)
    (maxLogicalSectorNum sector : Word)
    (bounded : maxLogicalSectorNum.toNat < 2 ^ 28) (buf buf2 : Sector)
    (state final : State) (words : List Half)
    (run : (writeThenRead device maxLogicalSectorNum sector buf buf2).run
      state = ((0, some (0, words)), final)) :
    words = buf.words ∧
      ∀ lba : BitVec 28, lba.toNat ≠ sector.toNat →
        (device.view final).content lba = (device.view state).content lba := by
  have program : Triple (Holds device (device.view state).content)
      (writeThenRead device maxLogicalSectorNum sector buf buf2)
      (fun result last => ∀ words, result = (0, some (0, words)) →
        sector.toNat < 2 ^ 28 ∧ words = buf.words ∧
          Holds device (fill (device.view state).content
            (sectorFile sector).lba buf) last) := by
    refine Triple.bind (writeSector_triple device buf bounded) fun written => ?_
    by_cases success : written = 0
    · refine Triple.weaken (Triple.assume fun small => ?_)
        (fun middle after => after success) (fun _ _ after => after)
      refine Triple.bind (readSector_triple device buf2 bounded) fun read => ?_
      apply Triple.pure
      intro last after words same
      rcases after words (Prod.mk.inj same).2 with ⟨wordsEq, holds⟩
      refine ⟨small, ?_, holds⟩
      rw [wordsEq, fill, if_pos rfl]
    · intro middle _ words same
      exact absurd (Prod.mk.inj same).1 success
  have after := program state rfl words
  rw [run] at after
  rcases after rfl with ⟨small, wordsEq, holds⟩
  refine ⟨wordsEq, ?_⟩
  intro lba other
  rw [holds, fill, if_neg]
  intro equal
  apply other
  rw [equal, sectorFile_lba, BitVec.toNat_setWidth]
  exact Nat.mod_eq_of_lt small

/-! ## A device -/

/-- A device with the number of statuses for which it still pretends to work. -/
structure SlowState where
  view : View
  stall : Nat

namespace SlowState

/-- A status of the selected device, and the phase behind it. -/
def answer (capacity : Nat) (state : SlowState) : Byte × SlowState :=
  match state.view.phase, state.stall with
  | .idle, _ => (0x50#8, state)
  | .reading _ _, _ => (0x58#8, state)
  | .writing _ _, _ => (0x58#8, state)
  | .busy, stall + 1 => (0x80#8, { state with stall })
  | .readCommand _, stall + 1 => (0x80#8, { state with stall })
  | .writeCommand _, stall + 1 => (0x80#8, { state with stall })
  | .busy, 0 => (0x50#8, { state with view.phase := .idle })
  | .readCommand lba, 0 =>
      if lba.toNat < capacity then
        (0x58#8, { state with view.phase := .reading lba 0 })
      else
        (0x51#8, { state with view.phase := .idle })
  | .writeCommand lba, 0 =>
      if lba.toNat < capacity then
        (0x58#8, { state with view.phase := .writing lba [] })
      else
        (0x51#8, { state with view.phase := .idle })

/-- A read of a register; an absent device 1 leaves the bus floating. -/
def read (capacity : Nat) (port : Half) (state : SlowState) :
    Byte × SlowState :=
  if port = statusRegister ∨ port = alternateStatusRegister then
    if state.view.taskFile.dev then (0x7f#8, state)
    else state.answer capacity
  else
    (state.view.taskFile.deviceHead, state)

theorem readyByte : bsy 0x50#8 = false ∧ drq 0x50#8 = false := by
  decide

theorem askingByte : bsy 0x58#8 = false ∧ drq 0x58#8 = true := by
  decide

theorem workingByte : bsy 0x80#8 = true ∧ drq 0x80#8 = false := by
  decide

theorem errorByte :
    bsy 0x51#8 = false ∧ drq 0x51#8 = false ∧ isError 0x51#8 = true := by
  decide

/-- The answers are those of a conforming device. -/
theorem answer_step (capacity : Nat) (state : SlowState) :
    ∃ phase, StatusStep capacity state.view.phase
        (state.answer capacity).1 phase ∧
      (state.answer capacity).2.view = { state.view with phase } := by
  rcases readyByte with ⟨readyFree, readyQuiet⟩
  rcases askingByte with ⟨askingFree, asks⟩
  rcases workingByte with ⟨busy, workingQuiet⟩
  rcases errorByte with ⟨errorFree, errorQuiet, error⟩
  rcases state with ⟨⟨file, phase, content⟩, stall⟩
  cases phase with
  | idle => exact ⟨_, .idle readyFree readyQuiet, rfl⟩
  | reading lba sent => exact ⟨_, .reading askingFree asks, rfl⟩
  | writing lba received => exact ⟨_, .writing askingFree asks, rfl⟩
  | busy =>
      cases stall with
      | zero => exact ⟨_, .done readyFree readyQuiet, rfl⟩
      | succ stall => exact ⟨_, .working trivial busy workingQuiet, rfl⟩
  | readCommand lba =>
      cases stall with
      | zero =>
          by_cases inside : lba.toNat < capacity
          · simp only [answer, if_pos inside]
            exact ⟨_, .readReady inside askingFree asks, rfl⟩
          · simp only [answer, if_neg inside]
            exact ⟨_, .readRejected errorFree errorQuiet error, rfl⟩
      | succ stall => exact ⟨_, .working trivial busy workingQuiet, rfl⟩
  | writeCommand lba =>
      cases stall with
      | zero =>
          by_cases inside : lba.toNat < capacity
          · simp only [answer, if_pos inside]
            exact ⟨_, .writeReady inside askingFree asks, rfl⟩
          · simp only [answer, if_neg inside]
            exact ⟨_, .writeRejected errorFree errorQuiet error, rfl⟩
      | succ stall => exact ⟨_, .working trivial busy workingQuiet, rfl⟩

/-- A command that is not understood keeps the device busy. -/
def execute (delay : Nat) (cmd : Byte) (state : SlowState) : SlowState :=
  { view :=
      { state.view with
        phase :=
          if cmd = pioSectorReadCmd then
            .readCommand state.view.taskFile.lba
          else if cmd = pioSectorWriteCmd then
            .writeCommand state.view.taskFile.lba
          else
            .busy }
    stall := delay }

end SlowState

/-- A device that works on each command for some statuses. -/
def slowDevice (capacity delay : Nat) (small : capacity < 2 ^ 28) :
    Device SlowState where
  inb port state := state.read capacity port
  outb value port state :=
    if port = commandRegister then
      ((), state.execute delay value)
    else
      ((), { state with view.taskFile := state.view.taskFile.write value port })
  inw _ state :=
    match state.view.phase with
    | .reading lba count =>
        ((state.view.content lba).words.getD count 0#16,
          { state with view := state.view.sent lba count })
    | _ => (0#16, state)
  outw word _ state :=
    match state.view.phase with
    | .writing lba words =>
        ((), { state with view := state.view.received lba words word })
    | _ => ((), state)
  wait _ state := ((), state)
  capacity := capacity
  capacity_lt := small
  view := SlowState.view
  status := by
    intro state port isStatus selected
    have answers : state.read capacity port = state.answer capacity := by
      rw [SlowState.read]
      rcases isStatus with rfl | rfl
      · simp [selected]
      · simp [selected]
    change ∃ phase, StatusStep capacity state.view.phase
        (state.read capacity port).1 phase ∧
      (state.read capacity port).2.view = { state.view with phase }
    rw [answers]
    exact state.answer_step capacity
  statusOther := by
    intro state port isStatus other
    change (state.read capacity port).2.view = state.view
    rw [SlowState.read]
    rcases isStatus with rfl | rfl
    · simp [other]
    · simp [other]
  readDeviceHead := fun _ => rfl
  passTime := fun _ _ => rfl
  writeTaskFile := by
    intro state value port isTaskFile _
    have noCommand : port ≠ commandRegister := by
      rcases isTaskFile with rfl | rfl | rfl | rfl | rfl
      all_goals decide
    change (if _ then _ else _ : Unit × SlowState).2.view = _
    rw [if_neg noCommand]
  writeControl := fun _ _ => rfl
  writeFeatures := fun _ _ => rfl
  command := fun _ _ _ _ _ => ⟨rfl, rfl⟩
  sendWord := by
    intro state lba count _ reading _
    rcases state with ⟨⟨file, phase, content⟩, stall⟩
    cases reading
    exact ⟨rfl, rfl⟩
  receiveWord := by
    intro state lba words word _ writing _
    rcases state with ⟨⟨file, phase, content⟩, stall⟩
    cases writing
    rfl

/-- A sector in which every word is the same. -/
def constantSector (word : Half) : Sector :=
  ⟨List.replicate 256 word, List.length_replicate⟩

/-- A device of 200 sectors that is selected and has nothing to do. -/
def idleState : SlowState where
  view :=
    { taskFile := sectorFile 0#32
      phase := .idle
      content := fun _ => constantSector 0#16 }
  stall := 0

/-- The device answers twice that it is busy, and the data come back. -/
theorem slowDevice_writeThenRead :
    ∃ words final,
      (writeThenRead (slowDevice 200 2 (by decide)) 200#32 100#32
          (constantSector 7#16) (constantSector 0#16)).run idleState =
        ((0, some (0, words)), final) ∧
      words = (constantSector 7#16).words ∧
      ∀ lba : BitVec 28, lba.toNat ≠ 100 →
        final.view.content lba = constantSector 0#16 := by
  have status : (((writeThenRead (slowDevice 200 2 (by decide)) 200#32 100#32
      (constantSector 7#16) (constantSector 0#16)).run idleState).1.1,
      ((writeThenRead (slowDevice 200 2 (by decide)) 200#32 100#32
      (constantSector 7#16) (constantSector 0#16)).run idleState).1.2.map
        Prod.fst) = (0, some 0) := by
    decide +kernel
  rcases run : (writeThenRead (slowDevice 200 2 (by decide)) 200#32 100#32
      (constantSector 7#16) (constantSector 0#16)).run idleState with
    ⟨⟨written, read⟩, final⟩
  rw [run] at status
  rcases Prod.mk.inj status with ⟨writtenEq, readEq⟩
  rcases Option.map_eq_some_iff.mp readEq with ⟨⟨code, words⟩, rfl, codeEq⟩
  cases writtenEq
  cases codeEq
  exact ⟨words, final, rfl,
    writeThenRead_sound _ 200#32 100#32 (by decide) _ _ _ _ words run⟩

end MagicalOs.Devices.AtaRoundTrip
