import GnssLink.Stream.Message
import GnssLink.Time
/-!
# GnssLink.Session.Poll

**Polls and what answers them.** A poll asks for a message. It is answered by that message, if it is
long enough, or by an acknowledgement that names it; a negative one refuses the poll
(`Poll.classify`). Where the message itself is followed by an acknowledgement, the latter must not
be taken for the answer (`Poll.ackAnswers`).
-/

namespace GnssLink

open GnssLink.Stream (Message)

/-- What the receiver says about a message that was sent to it. -/
structure Acknowledgement where
  accepted : Bool
  id : MessageId
  deriving DecidableEq, Repr

/-- The acknowledgement that a message is. -/
def Stream.Message.acknowledgement? (m : Message) : Option Acknowledgement :=
  match m.id?, m.payload with
  | some id, cls :: num :: _ =>
    if id = .ackAck then some ⟨true, ⟨cls, num⟩⟩
    else if id = .ackNak then some ⟨false, ⟨cls, num⟩⟩
    else none
  | _, _ => none

/-- A request for a message. -/
structure Poll where
  /-- The message asked for. -/
  id : MessageId
  /-- What the request carries. -/
  payload : List UInt8 := []
  /-- Whether nothing is sent, and the message only waited for. -/
  waitOnly : Bool := false
  /-- How long each attempt takes. -/
  timeout : Nat := millis 2000
  /-- How many attempts follow the first (see `Poll.attempts` for the most that there can be). -/
  retries : Nat := 2
  /-- The shortest payload of an answer. -/
  minSize : Nat := 0
  /-- Whether a positive acknowledgement is an answer. -/
  ackAnswers : Bool := true
  deriving DecidableEq, Repr

/-- What a message is to a poll. -/
inductive Relevance where
  /-- It answers the poll. -/
  | answer
  /-- It refuses the poll. -/
  | refusal
  /-- It has nothing to do with the poll. -/
  | unrelated
  deriving DecidableEq, Repr

/-- What ended a poll. -/
structure Answer where
  /-- The message that answered or refused the poll. -/
  message : Message
  refused : Bool
  deriving DecidableEq, Repr

namespace Poll

/-- What a message is to the poll. -/
def classify (poll : Poll) (m : Message) : Relevance :=
  if m.id? = some poll.id ∧ poll.minSize ≤ m.payload.length then .answer
  else
    match m.acknowledgement? with
    | some ⟨accepted, id⟩ =>
      if id ≠ poll.id then .unrelated
      else if !accepted then .refusal
      else if poll.ackAnswers then .answer
      else .unrelated
    | none => .unrelated

/-- How often the poll is sent at most: once, and once more for each retry. The count is a 64-bit
word, so that the greatest number of retries leaves no attempt at all. -/
def attempts (poll : Poll) : Nat := (poll.retries + 1) % UInt64.size

/-- Below the greatest number of retries each of them is an attempt after the first. -/
theorem attempts_eq {poll : Poll} (h : poll.retries + 1 < UInt64.size) :
    poll.attempts = poll.retries + 1 :=
  Nat.mod_eq_of_lt h

theorem attempts_le (poll : Poll) : poll.attempts ≤ poll.retries + 1 := Nat.mod_le _ _

theorem attempts_ne_zero {poll : Poll} (h : poll.retries + 1 < UInt64.size) :
    poll.attempts ≠ 0 := by
  rw [attempts_eq h]
  exact Nat.succ_ne_zero _

/-- The poll on the wire. -/
def frame (poll : Poll) : List UInt8 := Frame.encode ⟨poll.id, poll.payload⟩

end Poll
end GnssLink
