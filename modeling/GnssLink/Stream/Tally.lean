import GnssLink.Stream.Verdict
/-!
# GnssLink.Stream.Tally

**What came over the stream**: the number of messages and their bytes, by protocol and in total.
-/

namespace GnssLink.Stream

/-- Messages and their bytes. -/
structure Traffic where
  count : UInt32 := 0
  bytes : UInt64 := 0
  deriving DecidableEq, Repr

/-- With one more message of the given size. -/
def Traffic.add (t : Traffic) (size : Nat) : Traffic where
  count := t.count + 1
  bytes := t.bytes + UInt64.ofNat size

/-- The traffic by protocol. -/
structure Tally where
  total : Traffic := {}
  ubx : Traffic := {}
  nmea : Traffic := {}
  rtcm3 : Traffic := {}
  garbage : Traffic := {}
  deriving DecidableEq, Repr

namespace Tally

/-- The traffic of one protocol. -/
def get (t : Tally) : Protocol → Traffic
  | .ubx => t.ubx
  | .nmea => t.nmea
  | .rtcm3 => t.rtcm3
  | .garbage => t.garbage

/-- With one more message. -/
def add (t : Tally) (protocol : Protocol) (size : Nat) : Tally :=
  match protocol with
  | .ubx => { t with ubx := t.ubx.add size, total := t.total.add size }
  | .nmea => { t with nmea := t.nmea.add size, total := t.total.add size }
  | .rtcm3 => { t with rtcm3 := t.rtcm3.add size, total := t.total.add size }
  | .garbage => { t with garbage := t.garbage.add size, total := t.total.add size }

@[simp] theorem total_add (t : Tally) (p : Protocol) (size : Nat) :
    (t.add p size).total = t.total.add size := by
  cases p <;> rfl

@[simp] theorem get_add_self (t : Tally) (p : Protocol) (size : Nat) :
    (t.add p size).get p = (t.get p).add size := by
  cases p <;> rfl

theorem get_add_of_ne (t : Tally) {p q : Protocol} (size : Nat) (h : p ≠ q) :
    (t.add p size).get q = t.get q := by
  cases p <;> cases q <;> first | rfl | exact absurd rfl h

end Tally
end GnssLink.Stream
