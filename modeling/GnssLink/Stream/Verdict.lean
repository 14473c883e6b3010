/-!
# GnssLink.Stream.Verdict

**Protocols of a mixed stream**, and what can be said about the start of a buffer (`Verdict`): it
is a complete frame, it may become one, or it is none whatever follows.
-/

namespace GnssLink.Stream

/-- What a run of bytes was recognised as. -/
inductive Protocol where
  /-- The receiver's binary protocol. -/
  | ubx
  /-- Sentences of text. -/
  | nmea
  /-- Correction data. -/
  | rtcm3
  /-- Bytes that belong to no frame. -/
  | garbage
  deriving DecidableEq, Repr

namespace Protocol

/-- All protocols, in the order of reports. -/
def all : List Protocol := [ubx, nmea, rtcm3, garbage]

/-- The name in reports. -/
def name : Protocol → String
  | ubx => "UBX"
  | nmea => "NMEA"
  | rtcm3 => "RTCM3"
  | garbage => "GARBAGE"

end Protocol

/-- What is known about the start of a buffer. -/
inductive Verdict where
  /-- The buffer starts with a complete frame of `length` bytes. -/
  | frame (protocol : Protocol) (length : Nat)
  /-- The buffer is the start of a frame, as far as it goes. -/
  | needMore
  /-- No frame starts here. -/
  | noMatch
  deriving DecidableEq, Repr

end GnssLink.Stream
