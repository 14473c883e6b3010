import GnssLink.Time
/-!
# GnssLink.Link.Basic

**Links to a receiver.** A link is anything that bytes can be read from and written to, with a
clock of its own and perhaps a baud rate. Its state is a value: an operation answers what
happened and the link after it.

Design points:

* A read that finds nothing waits a little and answers no bytes. So every read makes progress:
  either it uses up some of what the link still has to deliver (`supply`) or time passes. This is
  what bounds every wait of a session.
* A failure is final for a session, so nothing is said about the link after one.
-/

namespace GnssLink

/-- Why a link failed. -/
structure Fault where
  /-- The reason in the words of the link. -/
  reason : String
  deriving DecidableEq, Repr

/-- The most bytes that one read answers. -/
def readSize : Nat := 4096

/-- What a session needs of a link with states `σ`. -/
class Link (σ : Type) where
  now : σ → Nat
  /-- The baud rate, if the link has one. -/
  baudRate : σ → Option UInt32
  /-- Reads what has arrived; nothing may have. -/
  read : σ → Except Fault (List UInt8) × σ
  write : List UInt8 → σ → Except Fault Unit × σ
  /-- Changes the baud rate of a link that has one. -/
  setBaudRate : UInt32 → σ → Except Fault Unit × σ
  /-- Forgets what has arrived. -/
  clearInput : σ → Except Fault Unit × σ
  /-- A bound on the bytes that the link still has to deliver. -/
  supply : σ → Nat
  /-- Bytes that were read are no longer supplied. -/
  supply_of_read : ∀ {s s' : σ} {data : List UInt8}, read s = (.ok data, s') →
    data.length + supply s' ≤ supply s
  /-- A read uses up supply or time. -/
  progress_of_read : ∀ {s s' : σ} {data : List UInt8}, read s = (.ok data, s') →
    supply s' < supply s ∨ now s < now s'
  /-- Writing calls for no more than what was supplied anyway. -/
  supply_write_le : ∀ (data : List UInt8) (s : σ), supply (write data s).2 ≤ supply s
  /-- A change of the baud rate supplies nothing. -/
  supply_setBaudRate_le : ∀ (baud : UInt32) (s : σ), supply (setBaudRate baud s).2 ≤ supply s
  /-- Forgetting supplies nothing. -/
  supply_clearInput_le : ∀ s : σ, supply (clearInput s).2 ≤ supply s

end GnssLink
