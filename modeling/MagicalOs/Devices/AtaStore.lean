import MagicalOs.Devices.AtaRoundTrip
import MagicalOs.Library.FallibleStore

/-!
# The disk as a store of sectors

Calls of `read_sector` and `write_sector` on device 0, one after the other.  A
call may fail: the device does not become ready, it refuses the sector, or it
does not answer in time, and may then make its offer when the driver no longer
waits for it.  Whatever happens, a failed call leaves all sectors alone, so the
disk is a store whose operations may fail.

A device that asks for data when a call begins is lost to the driver, which
never resets it.
-/

namespace MagicalOs.Devices.AtaStore

open MagicalOs.Library.ByteMemory
open MagicalOs.Library.Triples
open MagicalOs.Library.FallibleStore
open MagicalOs.Devices.Ata
open MagicalOs.Devices.AtaDevice
open MagicalOs.Devices.AtaRoundTrip

/-- A device which also lets its error register be read. -/
structure QuietDevice (State : Type) extends Device State where
  readError : ∀ state,
    view ((inb errorRegister).run state).2 = view state

/-! ## Calls that fail -/

section Failures

variable {State : Type} (device : QuietDevice State)
  {content : BitVec 28 → Sector} {file : TaskFile} {sector : Word}
  {asked ready : Phase}

theorem printErrorRegister_holds :
    Triple (Holds device.toDevice content)
      (printErrorRegister device.toBus 0)
      (fun _ => Holds device.toDevice content) := by
  refine Triple.bind (doDeviceSelectionProtocol_triple device.toDevice)
    fun selected => ?_
  refine Triple.ite ?_ ?_
  · intro _
    refine Triple.bind ?_ fun _ => Triple.pure fun _ holds => holds
    refine (keep device.toDevice device.readError fun view =>
      view.content = content).weaken ?_ (fun _ _ after => after)
    exact fun state after => after.1
  · intro _
    exact Triple.pure fun _ after => after.1

theorem waitUntilDeviceIsReady_holds :
    Triple (Holds device.toDevice content)
      (waitUntilDeviceIsReady device.toBus 0)
      (fun ok state => Holds device.toDevice content state ∧
        (ok = true → Ready device.toDevice content state)) := by
  rw [waitUntilDeviceIsReady]
  generalize 5 = rounds
  induction rounds with
  | zero =>
      apply Triple.pure
      exact fun state holds => ⟨holds, fun absent => by cases absent⟩
  | succ rounds hypothesis =>
      refine Triple.bind (doDeviceSelectionProtocol_triple device.toDevice)
        fun ready => ?_
      refine Triple.ite ?_ ?_
      · intro isReady
        apply Triple.pure
        exact fun state after => ⟨after.1, fun _ => after.2 isReady⟩
      · intro _
        refine Triple.seq (Holds device.toDevice content) ?_ hypothesis
        refine (keep device.toDevice (fun state => device.passTime state 5)
          fun view => view.content = content).weaken ?_ (fun _ _ after => after)
        exact fun state after => after.1

/-- While the device is awaited, its sectors are what they were. -/
theorem holds_of_awaiting {state : State}
    (awaiting : Awaiting device.toDevice file asked ready content state) :
    Holds device.toDevice content state := by
  rcases awaiting with ⟨phase, _, viewEq⟩
  rw [Holds, viewEq]

theorem readStatusRegisterAgain_holds
    (offers : Offers device.capacity asked ready)
    (selected : file.dev = false) (reads : Nat) :
    Triple (Awaiting device.toDevice file asked ready content)
      (readStatusRegisterAgain device.toBus 0 reads)
      (fun _ => Holds device.toDevice content) := by
  induction reads with
  | zero => exact Triple.pure fun _ => holds_of_awaiting device
  | succ reads hypothesis =>
      refine Triple.bind
        (awaiting_status device.toDevice offers selected (.inl rfl))
        fun status => ?_
      refine Triple.ite ?_ ?_
      · intro _
        refine Triple.seq (Holds device.toDevice content) ?_
          (Triple.pure fun _ holds => holds)
        refine (printErrorRegister_holds device).weaken ?_
          (fun _ _ after => after)
        exact fun state both => holds_of_awaiting device both.1
      · intro _
        refine Triple.ite ?_ ?_
        · intro _
          exact Triple.pure fun _ both => holds_of_awaiting device both.1
        · intro _
          refine hypothesis.weaken ?_ (fun _ _ after => after)
          exact fun state both => both.1

/-- `sector_rw_common` leaves the sectors alone, whatever it returns. -/
theorem sectorRwCommon_holds {cmd : Byte} {maxLogicalSectorNum : Word}
    (bounded : maxLogicalSectorNum.toNat < 2 ^ 28)
    (command : sector.toNat < 2 ^ 28 →
      Command device.toDevice cmd sector asked ready) :
    Triple (Holds device.toDevice content)
      (sectorRwCommon device.toBus maxLogicalSectorNum cmd 0 sector)
      (fun _ => Holds device.toDevice content) := by
  refine Triple.ite ?_ ?_
  · intro _
    exact Triple.pure fun _ holds => holds
  intro accepted
  have small : sector.toNat < 2 ^ 28 := by
    rw [BitVec.lt_def] at accepted
    omega
  rcases command small with ⟨offers, starts⟩
  refine Triple.bind (waitUntilDeviceIsReady_holds device) fun b => ?_
  refine Triple.ite ?_ ?_
  · intro isReady
    refine Triple.weaken ?_ (fun state after => after.2 isReady)
      (fun _ _ after => after)
    refine Triple.seq _ (setSector_triple device.toDevice) ?_
    refine Triple.seq
      (Awaiting device.toDevice (sectorFile sector) asked ready content) ?_ ?_
    · intro state viewEq
      exact ⟨asked, .inl rfl, starts state content viewEq⟩
    refine Triple.seq _ (keep device.toDevice
      (fun state => device.passTime state 4)
      fun view => ∃ phase, (phase = asked ∨ phase = ready ∨ phase = .idle) ∧
        view = { taskFile := sectorFile sector, phase, content }) ?_
    refine Triple.bind (awaiting_status device.toDevice offers
      (dev_of_lt small) alternateStatus_isStatus) fun _ => ?_
    refine (readStatusRegisterAgain_holds device offers (dev_of_lt small)
      7).weaken ?_ (fun _ _ after => after)
    exact fun state both => both.1
  · intro _
    exact Triple.pure fun _ after => after.1

/-- `write_sector` returns zero, or it returns -1 and has written nothing. -/
theorem writeSector_outcome {maxLogicalSectorNum : Word} (buf : Sector)
    (bounded : maxLogicalSectorNum.toNat < 2 ^ 28) :
    Triple (Holds device.toDevice content)
      (writeSector device.toBus maxLogicalSectorNum 0 sector buf.words)
      (fun ret state => ret = 0 ∨
        ret = -1 ∧ Holds device.toDevice content state) := by
  refine Triple.bind (sectorRwCommon_holds device bounded fun small =>
    command_write device.toDevice (dev_of_lt small)) fun ret => ?_
  refine Triple.ite ?_ ?_
  · intro _
    refine Triple.seq (fun _ => True) (fun _ _ => trivial) ?_
    refine Triple.seq (fun _ => True) (fun _ _ => trivial) ?_
    exact Triple.pure fun _ _ => .inl rfl
  · intro _
    exact Triple.pure fun _ holds => .inr ⟨rfl, holds⟩

/-- `read_sector` returns zero, or it returns -1 and keeps the buffer. -/
theorem readSector_outcome {maxLogicalSectorNum : Word} (buf : Sector)
    (bounded : maxLogicalSectorNum.toNat < 2 ^ 28) :
    Triple (Holds device.toDevice content)
      (readSector device.toBus maxLogicalSectorNum 0 sector buf.words)
      (fun result state =>
        (sector.toNat < 2 ^ 28 ∧ ∃ words, result = some (0, words)) ∨
          result = some (-1, buf.words) ∧
            Holds device.toDevice content state) := by
  refine Triple.ite ?_ ?_
  · intro wrongSize
    exact absurd buf.length wrongSize
  intro _
  refine Triple.bind (Triple.both
    (sectorRwCommon_triple device.toDevice bounded fun small =>
      command_read device.toDevice (dev_of_lt small))
    (sectorRwCommon_holds device bounded fun small =>
      command_read device.toDevice (dev_of_lt small))) fun ret => ?_
  refine Triple.ite ?_ ?_
  · intro succeeds
    refine Triple.weaken (Triple.assume fun small => ?_)
      (fun state after => ⟨(after.1 succeeds).1, trivial⟩)
      (fun _ _ after => after)
    refine Triple.bind (Triple.any _) fun words => ?_
    refine Triple.seq (fun _ => True) (fun _ _ => trivial) ?_
    exact Triple.pure fun _ _ => .inl ⟨small, words, rfl⟩
  · intro _
    exact Triple.pure fun _ after => .inr ⟨rfl, after.2⟩

end Failures

/-! ## Sequences of calls -/

/-- A call with its sector number and its buffer. -/
inductive Call where
  | read (sector : Word) (buf : Sector)
  | write (sector : Word) (buf : Sector)

/-- The status that is returned, and the buffer afterwards. -/
structure Answer where
  ret : Int
  buf : List Half

/-- What a call asks of the store. -/
def Call.request : Call → Request (BitVec 28) (List Half)
  | .read sector _ => .read (sectorFile sector).lba
  | .write sector buf => .write (sectorFile sector).lba buf.words

/-- What an answer means; the store cannot fail otherwise. -/
def reply (call : Call) (answer : Option Answer) : Reply (List Half) :=
  match call, answer with
  | .read _ _, some ⟨0, words⟩ => .value words
  | .write _ _, some ⟨0, _⟩ => .done
  | _, _ => .failed

/-- A call that succeeds returns zero, for a sector that can be addressed. -/
def Succeeds (call : Call) (answer : Option Answer) : Prop :=
  match call with
  | .read sector _ =>
      sector.toNat < 2 ^ 28 ∧ ∃ words, answer = some ⟨0, words⟩
  | .write sector buf =>
      sector.toNat < 2 ^ 28 ∧ answer = some ⟨0, buf.words⟩

/-- A call that fails returns -1 and leaves its buffer alone. -/
def Fails (call : Call) (answer : Option Answer) : Prop :=
  match call with
  | .read _ buf => answer = some ⟨-1, buf.words⟩
  | .write _ buf => answer = some ⟨-1, buf.words⟩

section Calls

variable {State : Type} (device : QuietDevice State)
  (maxLogicalSectorNum : Word)

/-- One call on device 0; without an answer it hangs. -/
def perform : Call → StateM State (Option Answer)
  | .read sector buf => do
      let result ←
        readSector device.toBus maxLogicalSectorNum 0 sector buf.words
      return result.map fun (ret, words) => ⟨ret, words⟩
  | .write sector buf => do
      let ret ←
        writeSector device.toBus maxLogicalSectorNum 0 sector buf.words
      return some ⟨ret, buf.words⟩

/-- Calls one after the other, each with its answer. -/
def performAll : List Call → StateM State (List (Call × Option Answer))
  | [] => return []
  | call :: calls => do
      let answer ← perform device maxLogicalSectorNum call
      let later ← performAll calls
      return (call, answer) :: later

/-- The words of all sectors. -/
def words (content : BitVec 28 → Sector) (lba : BitVec 28) : List Half :=
  (content lba).words

/-- The requests to the store, with its replies. -/
def exchanges (history : List (Call × Option Answer)) :
    List (Request (BitVec 28) (List Half) × Reply (List Half)) :=
  history.map fun entry => (entry.1.request, reply entry.1 entry.2)

variable {content : BitVec 28 → Sector} {maxLogicalSectorNum}

theorem words_fill (lba : BitVec 28) (buf : Sector) :
    words (fill content lba buf) =
      Function.update (words content) lba buf.words := by
  funext other
  rw [words, fill, Function.update_apply]
  split
  next => rfl
  next => rfl

/-- What is known of a call on a device with these sectors. -/
structure Served (content : BitVec 28 → Sector) (call : Call)
    (answer : Option Answer) (after : BitVec 28 → Sector) : Prop where
  outcome : Succeeds call answer ∨ Fails call answer
  serves : Serves (words content) call.request (reply call answer)
    (words after)

theorem served_failed {call : Call} {answer : Option Answer}
    (fails : Fails call answer) : Served content call answer content := by
  refine ⟨.inr fails, ?_⟩
  have failed : reply call answer = .failed := by
    cases call with
    | read sector buf =>
        rw [show answer = _ from fails]
        rfl
    | write sector buf =>
        rw [show answer = _ from fails]
        rfl
  rw [failed]
  exact .failed _

/-- A call is an operation of the store. -/
theorem perform_triple (bounded : maxLogicalSectorNum.toNat < 2 ^ 28)
    (call : Call) :
    Triple (Holds device.toDevice content)
      (perform device maxLogicalSectorNum call)
      (fun answer state => ∃ after, Holds device.toDevice after state ∧
        Served content call answer after) := by
  cases call with
  | read sector buf =>
      refine Triple.bind (Triple.both
        (readSector_triple device.toDevice buf bounded)
        (readSector_outcome device buf bounded)) fun result => ?_
      apply Triple.pure
      rintro state ⟨reads, ⟨small, read, rfl⟩ | ⟨rfl, holds⟩⟩
      · rcases reads read rfl with ⟨readEq, holds⟩
        refine ⟨content, holds, .inl ⟨small, read, rfl⟩, ?_⟩
        rw [readEq]
        exact .read _
      · exact ⟨content, holds, served_failed rfl⟩
  | write sector buf =>
      refine Triple.bind (Triple.both
        (writeSector_triple device.toDevice buf bounded)
        (writeSector_outcome device buf bounded)) fun ret => ?_
      apply Triple.pure
      rintro state ⟨writes, rfl | ⟨rfl, holds⟩⟩
      · rcases writes rfl with ⟨small, holds⟩
        refine ⟨_, holds, .inl ⟨small, rfl⟩, ?_⟩
        rw [words_fill]
        exact .write _ _
      · exact ⟨content, holds, served_failed rfl⟩

/-- Calls one after the other are operations of the store. -/
theorem performAll_triple (bounded : maxLogicalSectorNum.toNat < 2 ^ 28)
    (calls : List Call) :
    Triple (Holds device.toDevice content)
      (performAll device maxLogicalSectorNum calls)
      (fun history state => history.map Prod.fst = calls ∧
        (∀ entry ∈ history,
          Succeeds entry.1 entry.2 ∨ Fails entry.1 entry.2) ∧
        ∃ after, Holds device.toDevice after state ∧
          ServesAll (words content) (exchanges history) (words after)) := by
  induction calls generalizing content with
  | nil =>
      apply Triple.pure
      intro state holds
      exact ⟨rfl, fun _ absent => absurd absent List.not_mem_nil, content,
        holds, .nil _⟩
  | cons call calls hypothesis =>
      intro state holds
      rcases perform_triple device bounded call state holds with
        ⟨middle, holds, served⟩
      rcases hypothesis _ holds with ⟨asked, outcomes, after, holds, serves⟩
      refine ⟨congrArg (List.cons call) asked, ?_, after, holds,
        .cons served.serves serves⟩
      intro entry member
      rcases List.mem_cons.mp member with rfl | later
      · exact served.outcome
      · exact outcomes entry later

end Calls

/--
Whatever the device does, every call on it succeeds or fails, a successful read
returns what the last successful write to its sector has sent, or what the
sector held at the beginning, and this is also what every sector holds in the
end.
-/
theorem disk_isStore {State : Type} (device : QuietDevice State)
    (maxLogicalSectorNum : Word)
    (bounded : maxLogicalSectorNum.toNat < 2 ^ 28) (calls : List Call)
    (state final : State) (history : List (Call × Option Answer))
    (ran : (performAll device maxLogicalSectorNum calls).run state =
      (history, final)) :
    history.map Prod.fst = calls ∧
      (∀ entry ∈ history, Succeeds entry.1 entry.2 ∨ Fails entry.1 entry.2) ∧
      (∀ before rest sector buf read,
        history = before ++ (.read sector buf, some ⟨0, read⟩) :: rest →
        read = latest (sectorFile sector).lba
          (words (device.view state).content (sectorFile sector).lba)
          (exchanges before)) ∧
      ∀ lba, words (device.view final).content lba =
        latest lba (words (device.view state).content lba)
          (exchanges history) := by
  have served := performAll_triple device bounded calls state rfl
  rw [ran] at served
  rcases served with ⟨asked, outcomes, after, holds, serves⟩
  refine ⟨asked, outcomes, ?_, ?_⟩
  · rintro before rest sector buf read rfl
    rw [exchanges, List.map_append, List.map_cons] at serves
    exact serves.read_eq
  · intro lba
    rw [show (device.view final).content = after from holds]
    exact serves.final_eq lba

/-! ## A device that is lost -/

/-- The selected device asks for data. -/
structure Stalled (view : View) : Prop where
  selected : view.taskFile.dev = false
  asks : (∃ lba sent, view.phase = .reading lba sent) ∨
    ∃ lba received, view.phase = .writing lba received

section Stalls

variable {State : Type} (device : QuietDevice State) {view : View}
  {maxLogicalSectorNum : Word}

/-- Every status asks for data, and nothing changes. -/
theorem stalled_status (stalled : Stalled view) {port : Half}
    (isStatus : IsStatusPort port) :
    Triple (fun state => device.view state = view) (device.inb port)
      (fun data state => drq data = true ∧ device.view state = view) := by
  rintro state rfl
  rcases device.status state port isStatus stalled.selected with
    ⟨phase, step, after⟩
  rw [after]
  rcases stalled.asks with ⟨lba, sent, reading⟩ | ⟨lba, received, writing⟩
  · rw [reading] at step
    cases step with
    | working working => exact working.elim
    | reading free asks => exact ⟨asks, by rw [← reading]⟩
  · rw [writing] at step
    cases step with
    | working working => exact working.elim
    | writing free asks => exact ⟨asks, by rw [← writing]⟩

theorem stalled_wait (stalled : Stalled view) {port : Half}
    (isStatus : IsStatusPort port) :
    Triple (fun state => device.view state = view)
      (waitUntilBsyAndDrqAreZero device.toBus port)
      (fun ok state => ok = false ∧ device.view state = view) := by
  rw [waitUntilBsyAndDrqAreZero]
  generalize 1000 = rounds
  induction rounds with
  | zero => exact Triple.pure fun state same => ⟨rfl, same⟩
  | succ rounds hypothesis =>
      refine Triple.bind (stalled_status device stalled isStatus)
        fun data => ?_
      refine Triple.assume fun asks => ?_
      refine Triple.ite ?_ fun _ => hypothesis
      intro quiet
      have noisy : (!bsy data && !drq data) = false := by
        rw [asks, Bool.not_true, Bool.and_false]
      cases quiet.symm.trans noisy

theorem stalled_select (stalled : Stalled view) :
    Triple (fun state => device.view state = view)
      (doDeviceSelectionProtocol device.toBus 0)
      (fun ok state => ok = false ∧ device.view state = view) := by
  refine Triple.bind (stalled_wait device stalled alternateStatus_isStatus)
    fun free => ?_
  refine Triple.assume fun busy => ?_
  rw [busy]
  exact Triple.pure fun state same => ⟨rfl, same⟩

theorem stalled_ready (stalled : Stalled view) :
    Triple (fun state => device.view state = view)
      (waitUntilDeviceIsReady device.toBus 0)
      (fun ok state => ok = false ∧ device.view state = view) := by
  rw [waitUntilDeviceIsReady]
  generalize 5 = rounds
  induction rounds with
  | zero => exact Triple.pure fun state same => ⟨rfl, same⟩
  | succ rounds hypothesis =>
      refine Triple.bind (stalled_select device stalled) fun ready => ?_
      refine Triple.assume fun notReady => ?_
      rw [notReady]
      exact Triple.seq _ (keep device.toDevice
        (fun state => device.passTime state 5) fun after => after = view)
        hypothesis

theorem stalled_sectorRwCommon (stalled : Stalled view) (cmd : Byte)
    (sector : Word) :
    Triple (fun state => device.view state = view)
      (sectorRwCommon device.toBus maxLogicalSectorNum cmd 0 sector)
      (fun ok state => ok = false ∧ device.view state = view) := by
  refine Triple.ite ?_ ?_
  · intro _
    exact Triple.pure fun state same => ⟨rfl, same⟩
  intro _
  refine Triple.bind (stalled_ready device stalled) fun ready => ?_
  refine Triple.assume fun notReady => ?_
  rw [notReady]
  exact Triple.pure fun state same => ⟨rfl, same⟩

theorem stalled_readSector (stalled : Stalled view) (sector : Word)
    (buf : Sector) :
    Triple (fun state => device.view state = view)
      (readSector device.toBus maxLogicalSectorNum 0 sector buf.words)
      (fun result state =>
        result = some (-1, buf.words) ∧ device.view state = view) := by
  refine Triple.ite ?_ ?_
  · intro wrongSize
    exact absurd buf.length wrongSize
  intro _
  refine Triple.bind (stalled_sectorRwCommon device stalled _ sector)
    fun ret => ?_
  refine Triple.assume fun fails => ?_
  rw [fails]
  exact Triple.pure fun state same => ⟨rfl, same⟩

theorem stalled_writeSector (stalled : Stalled view) (sector : Word)
    (buf : List Half) :
    Triple (fun state => device.view state = view)
      (writeSector device.toBus maxLogicalSectorNum 0 sector buf)
      (fun ret state => ret = -1 ∧ device.view state = view) := by
  refine Triple.bind (stalled_sectorRwCommon device stalled _ sector)
    fun ret => ?_
  refine Triple.assume fun fails => ?_
  rw [fails]
  exact Triple.pure fun state same => ⟨rfl, same⟩

theorem stalled_perform (stalled : Stalled view) (call : Call) :
    Triple (fun state => device.view state = view)
      (perform device maxLogicalSectorNum call)
      (fun answer state => Fails call answer ∧ device.view state = view) := by
  cases call with
  | read sector buf =>
      refine Triple.bind (stalled_readSector device stalled sector buf)
        fun result => ?_
      refine Triple.assume fun fails => ?_
      rw [fails]
      exact Triple.pure fun state same => ⟨rfl, same⟩
  | write sector buf =>
      refine Triple.bind (stalled_writeSector device stalled sector buf.words)
        fun ret => ?_
      refine Triple.assume fun fails => ?_
      rw [fails]
      exact Triple.pure fun state same => ⟨rfl, same⟩

/-- From then on every call fails. -/
theorem stalled_performAll (maxLogicalSectorNum : Word)
    (stalled : Stalled view) (calls : List Call) :
    Triple (fun state => device.view state = view)
      (performAll device maxLogicalSectorNum calls)
      (fun history state =>
        (∀ entry ∈ history, Fails entry.1 entry.2) ∧
          device.view state = view) := by
  induction calls with
  | nil =>
      apply Triple.pure
      exact fun state same =>
        ⟨fun _ absent => absurd absent List.not_mem_nil, same⟩
  | cons call calls hypothesis =>
      refine Triple.bind (stalled_perform device stalled call)
        fun answer => ?_
      refine Triple.assume fun fails => ?_
      refine Triple.bind hypothesis fun later => ?_
      refine Triple.assume fun allFail => ?_
      refine Triple.pure fun state same => ⟨?_, same⟩
      intro entry member
      rcases List.mem_cons.mp member with rfl | later
      · exact fails
      · exact allFail entry later

end Stalls

/--
A device that asks for data at the beginning of a call is lost: from then on
every call fails, and nothing about the device changes.
-/
theorem stalled_lost {State : Type} (device : QuietDevice State)
    (maxLogicalSectorNum : Word) (calls : List Call) (state final : State)
    (history : List (Call × Option Answer))
    (stalled : Stalled (device.view state))
    (ran : (performAll device maxLogicalSectorNum calls).run state =
      (history, final)) :
    (∀ entry ∈ history, Fails entry.1 entry.2) ∧
      device.view final = device.view state := by
  have lost := stalled_performAll device maxLogicalSectorNum stalled calls
    state rfl
  rw [ran] at lost
  exact lost

/-! ## Sample devices -/

/-- The error register of the sample device can be read. -/
def quietDevice (capacity delay : Nat) (small : capacity < 2 ^ 28) :
    QuietDevice SlowState where
  toDevice := slowDevice capacity delay small
  readError := fun _ => rfl

/-- A sector is written, one that does not exist is read, and then it is. -/
def sampleCalls : List Call :=
  [.write 100#32 (constantSector 7#16), .read 300#32 (constantSector 1#16),
    .read 100#32 (constantSector 0#16)]

theorem quietDevice_isStore :
    ∃ history final,
      (performAll (quietDevice 200 2 (by decide)) 250#32 sampleCalls).run
        idleState = (history, final) ∧
      history.map (fun entry => entry.2.map Answer.ret) =
        [some 0, some (-1), some 0] ∧
      ∀ lba, words final.view.content lba =
        latest lba (words idleState.view.content lba) (exchanges history) := by
  have rets : (((performAll (quietDevice 200 2 (by decide)) 250#32
      sampleCalls).run idleState).1.map fun entry =>
        entry.2.map Answer.ret) = [some 0, some (-1), some 0] := by
    decide +kernel
  rcases run : (performAll (quietDevice 200 2 (by decide)) 250#32
    sampleCalls).run idleState with ⟨history, final⟩
  rw [run] at rets
  have store := disk_isStore _ 250#32 (by decide) _ _ _ _ run
  exact ⟨history, final, rfl, rets, store.2.2.2⟩

/-- Whether words are asked for, as a test. -/
def asksForWords : Phase → Bool
  | .writing _ _ => true
  | _ => false

theorem exists_of_asksForWords {phase : Phase}
    (asks : asksForWords phase = true) :
    ∃ lba received, phase = .writing lba received := by
  cases phase with
  | writing lba received => exact ⟨lba, received, rfl⟩
  | idle => cases asks
  | busy => cases asks
  | readCommand lba => cases asks
  | reading lba sent => cases asks
  | writeCommand lba => cases asks

/-- A device which answers too late for the driver. -/
def lateDevice : QuietDevice SlowState :=
  quietDevice 200 9 (by decide)

/-- The state behind its first two calls. -/
def lateState : SlowState :=
  ((performAll lateDevice 250#32
    [.write 100#32 (constantSector 7#16),
      .read 100#32 (constantSector 0#16)]).run idleState).2

theorem lateState_stalled : Stalled (lateDevice.view lateState) := by
  have asks : (lateDevice.view lateState).taskFile.dev = false ∧
      asksForWords (lateDevice.view lateState).phase = true := by
    decide +kernel
  exact ⟨asks.1, .inr (exists_of_asksForWords asks.2)⟩

theorem lateState_lost :
    ∃ history final,
      (performAll lateDevice 250#32 sampleCalls).run lateState =
        (history, final) ∧
      (∀ entry ∈ history, Fails entry.1 entry.2) ∧
      lateDevice.view final = lateDevice.view lateState := by
  rcases run : (performAll lateDevice 250#32 sampleCalls).run lateState with
    ⟨history, final⟩
  have lost := stalled_lost lateDevice 250#32 sampleCalls lateState final
    history lateState_stalled run
  exact ⟨history, final, rfl, lost⟩

end MagicalOs.Devices.AtaStore
