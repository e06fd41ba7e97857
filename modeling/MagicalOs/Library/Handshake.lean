import MagicalOs.Library.BoundedLoops
import Mathlib.Logic.Function.Iterate

/-!
# A register with room for one message

A writer hands messages to a reader through a register which holds one of them.
The reader takes a message in its own time.  A message which is written while
another one waits overwrites it.

A writer which asks, before each message, whether one still waits, and goes on
asking as long as one does, loses none: the reader gets all of them, in their
order.  It comes to its end with every reader that does not leave a message
behind for ever.
-/

namespace MagicalOs.Library.Handshake

open MagicalOs.Library.BoundedLoops

variable {Message State : Type}

/-- The message which waits, and those which have been taken or overwritten. -/
@[ext]
structure Mailbox (Message : Type) where
  waiting : Option Message
  taken : List Message
  lost : List Message

namespace Mailbox

/-- The reader takes the message. -/
def take (mailbox : Mailbox Message) : Mailbox Message where
  waiting := none
  taken := mailbox.taken ++ mailbox.waiting.toList
  lost := mailbox.lost

/-- The writer writes a message, and overwrites the one which waits. -/
def put (mailbox : Mailbox Message) (message : Message) : Mailbox Message where
  waiting := some message
  taken := mailbox.taken
  lost := mailbox.lost ++ mailbox.waiting.toList

/-- The messages in the order in which they reach the reader. -/
def history (mailbox : Mailbox Message) : List Message :=
  mailbox.taken ++ mailbox.waiting.toList

variable {mailbox middle after : Mailbox Message}

/-- What the reader may do meanwhile. -/
inductive Progress : Mailbox Message → Mailbox Message → Prop where
  | rests (mailbox : Mailbox Message) : Progress mailbox mailbox
  | takes (mailbox : Mailbox Message) : Progress mailbox mailbox.take

theorem take_of_empty (empty : mailbox.waiting = none) :
    mailbox.take = mailbox := by
  ext1
  · exact empty.symm
  · rw [take, empty]
    exact List.append_nil _
  · rfl

theorem history_of_empty (empty : mailbox.waiting = none) :
    mailbox.history = mailbox.taken := by
  rw [history, empty]
  exact List.append_nil _

namespace Progress

/-- The reader takes a message once. -/
theorem trans (first : Progress mailbox middle)
    (second : Progress middle after) : Progress mailbox after := by
  cases first with
  | rests => exact second
  | takes =>
      cases second with
      | rests => exact .takes mailbox
      | takes =>
          have same : mailbox.take.take = mailbox.take := take_of_empty rfl
          rw [same]
          exact .takes mailbox

/-- The reader neither loses a message nor changes the order. -/
theorem keeps (progress : Progress mailbox after) :
    after.history = mailbox.history ∧ after.lost = mailbox.lost := by
  cases progress with
  | rests => exact ⟨rfl, rfl⟩
  | takes => exact ⟨history_of_empty rfl, rfl⟩

/-- It puts no message into an empty register. -/
theorem of_empty (progress : Progress mailbox after)
    (empty : mailbox.waiting = none) : after = mailbox := by
  cases progress with
  | rests => rfl
  | takes => exact take_of_empty empty

end Progress

/-- A message for an empty register comes behind all others. -/
theorem put_of_empty (empty : mailbox.waiting = none) (message : Message) :
    (mailbox.put message).history = mailbox.history ++ [message] ∧
      (mailbox.put message).lost = mailbox.lost := by
  constructor
  · rw [history_of_empty empty]
    rfl
  · rw [put, empty]
    exact List.append_nil _

end Mailbox

open Mailbox

/-! ## The writer -/

/-- How the writer asks whether a message waits, and how it writes one. -/
structure Access (State Message : Type) where
  ask : State → Bool × State
  write : Message → State → State

namespace Access

/-- Ask until no message waits. -/
def waitUntilEmpty (access : Access State Message) :
    (rounds : Nat) → State → Option State
  | 0, _ => none
  | rounds + 1, state =>
      let (waits, state) := access.ask state
      if waits then
        access.waitUntilEmpty rounds state
      else
        some state

theorem waitUntilEmpty_succ (access : Access State Message) (rounds : Nat)
    (state : State) :
    access.waitUntilEmpty (rounds + 1) state =
      if (access.ask state).1 then
        access.waitUntilEmpty rounds (access.ask state).2
      else
        some (access.ask state).2 :=
  rfl

/-- Write each message when none waits. -/
def sendAll (access : Access State Message) (rounds : Nat) :
    List Message → State → Option State
  | [], state => some state
  | message :: rest, state => do
      let state ← access.waitUntilEmpty rounds state
      access.sendAll rounds rest (access.write message state)

/-- Write all messages, and wait until the last one is taken. -/
def deliver (access : Access State Message) (rounds : Nat)
    (messages : List Message) (state : State) : Option State := do
  let state ← access.sendAll rounds messages state
  access.waitUntilEmpty rounds state

/--
A reader behind the register, which makes progress before and after each access
of the writer, and takes every message while it is asked about it.
-/
structure Serves (access : Access State Message)
    (mailbox : State → Mailbox Message) : Prop where
  ask : ∀ state, ∃ middle, Progress (mailbox state) middle ∧
    (access.ask state).1 = middle.waiting.isSome ∧
    Progress middle (mailbox (access.ask state).2)
  write : ∀ message state, ∃ middle, Progress (mailbox state) middle ∧
    Progress (middle.put message) (mailbox (access.write message state))
  patient : ∀ state, ∃ count,
    (mailbox ((fun state => (access.ask state).2)^[count] state)).waiting =
      none

namespace Serves

variable {access : Access State Message} {mailbox : State → Mailbox Message}
  {rounds : Nat} {state after : State} {messages : List Message}

/-- The writer goes on when the reader has taken everything. -/
theorem waitUntilEmpty_spec (serves : Serves access mailbox)
    (ran : access.waitUntilEmpty rounds state = some after) :
    (mailbox after).waiting = none ∧
      (mailbox after).history = (mailbox state).history ∧
      (mailbox after).lost = (mailbox state).lost := by
  induction rounds generalizing state with
  | zero => cases ran
  | succ rounds induction =>
      rcases serves.ask state with ⟨middle, before, answer, behind⟩
      have kept := (before.trans behind).keeps
      rw [waitUntilEmpty_succ] at ran
      split at ran
      next =>
        rcases induction ran with ⟨empty, history, lost⟩
        exact ⟨empty, history.trans kept.1, lost.trans kept.2⟩
      next free =>
        cases ran
        have empty : middle.waiting = none := by
          rw [answer] at free
          simpa using free
        rw [behind.of_empty empty] at kept ⊢
        exact ⟨empty, kept⟩

/-- An empty register is found empty. -/
theorem ask_of_empty (serves : Serves access mailbox)
    (empty : (mailbox state).waiting = none) :
    (access.ask state).1 = false := by
  rcases serves.ask state with ⟨middle, before, answer, _⟩
  rw [answer, before.of_empty empty, empty]
  rfl

theorem waitUntilEmpty_settles (serves : Serves access mailbox)
    (state : State) :
    ∃ after,
      Settles (fun rounds => access.waitUntilEmpty rounds state) after := by
  rcases serves.patient state with ⟨count, empty⟩
  induction count generalizing state with
  | zero =>
      have answer : (access.ask state).1 = false :=
        serves.ask_of_empty empty
      refine ⟨(access.ask state).2, Settles.round ?_⟩
      simp only [waitUntilEmpty_succ, answer]
      exact Settles.pure _
  | succ count induction =>
      cases answer : (access.ask state).1 with
      | false =>
          refine ⟨(access.ask state).2, Settles.round ?_⟩
          simp only [waitUntilEmpty_succ, answer]
          exact Settles.pure _
      | true =>
          rw [Function.iterate_succ_apply] at empty
          rcases induction (access.ask state).2 empty with ⟨after, settles⟩
          refine ⟨after, Settles.round ?_⟩
          simp only [waitUntilEmpty_succ, answer]
          exact settles

/-- Nothing is lost, and the messages come behind all others. -/
theorem sendAll_spec (serves : Serves access mailbox)
    (ran : access.sendAll rounds messages state = some after) :
    (mailbox after).history = (mailbox state).history ++ messages ∧
      (mailbox after).lost = (mailbox state).lost := by
  induction messages generalizing state with
  | nil =>
      cases ran
      exact ⟨(List.append_nil _).symm, rfl⟩
  | cons message rest induction =>
      rcases Option.bind_eq_some_iff.mp ran with ⟨ready, waited, sent⟩
      rcases serves.waitUntilEmpty_spec waited with ⟨empty, history, lost⟩
      rcases serves.write message ready with ⟨middle, before, behind⟩
      rcases induction sent with ⟨restHistory, restLost⟩
      rw [before.of_empty empty] at behind
      have put := put_of_empty empty message
      constructor
      · rw [restHistory, behind.keeps.1, put.1, history, List.append_assoc]
        rfl
      · rw [restLost, behind.keeps.2, put.2, lost]

theorem sendAll_settles (serves : Serves access mailbox)
    (messages : List Message) (state : State) :
    ∃ after,
      Settles (fun rounds => access.sendAll rounds messages state) after := by
  induction messages generalizing state with
  | nil => exact ⟨state, Settles.pure state⟩
  | cons message rest induction =>
      rcases serves.waitUntilEmpty_settles state with ⟨ready, waited⟩
      rcases induction (access.write message ready) with ⟨after, sent⟩
      exact ⟨after, Settles.bind waited sent⟩

/-- The reader has got everything, in the order in which it was written. -/
theorem deliver_spec (serves : Serves access mailbox)
    (ran : access.deliver rounds messages state = some after) :
    (mailbox after).waiting = none ∧
      (mailbox after).taken = (mailbox state).history ++ messages ∧
      (mailbox after).lost = (mailbox state).lost := by
  rcases Option.bind_eq_some_iff.mp ran with ⟨sent, first, waited⟩
  rcases serves.sendAll_spec first with ⟨history, lost⟩
  rcases serves.waitUntilEmpty_spec waited with ⟨empty, lastHistory, lastLost⟩
  refine ⟨empty, ?_, lastLost.trans lost⟩
  rw [← history_of_empty empty, lastHistory, history]

theorem deliver_settles (serves : Serves access mailbox)
    (messages : List Message) (state : State) :
    ∃ after,
      Settles (fun rounds => access.deliver rounds messages state) after := by
  rcases serves.sendAll_settles messages state with ⟨sent, first⟩
  rcases serves.waitUntilEmpty_settles sent with ⟨after, waited⟩
  exact ⟨after, Settles.bind first waited⟩

end Serves

end Access

end MagicalOs.Library.Handshake
