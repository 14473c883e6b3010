import GnssLink.Catalogue.Message
import GnssLink.Report.Describe
import GnssLink.Stream.Rtcm3
import GnssLink.Stream.Verdict
import GnssLink.Text.Split
/-!
# GnssLink.Stream.Message

**Messages taken from a stream**: the bytes as they came, with what they were recognised as and
the number of the message in the stream.
-/

namespace GnssLink.Stream

/-- A frame, a sentence or a run of garbage. -/
structure Message where
  /-- What it was recognised as. -/
  protocol : Protocol
  /-- All its bytes, with sync bytes and checksum. -/
  data : List UInt8
  /-- Its number; the first message of a stream has number 1. -/
  seq : UInt32
  deriving DecidableEq, Repr

namespace Message

/-- The class and number of a UBX message. -/
def id? (m : Message) : Option MessageId :=
  match m.protocol, m.data with
  | .ubx, _ :: _ :: cls :: num :: _ => some ⟨cls, num⟩
  | _, _ => none

/-- The payload of a UBX message. The other protocols have no separate payload: theirs is the whole
message. -/
def payload (m : Message) : List UInt8 :=
  match m.protocol with
  | .ubx => (m.data.take (m.data.length - 2)).drop 6
  | _ => m.data

/-- The name of an NMEA sentence: its address, which is all before the first comma or star. A
standard address is a talker of two characters and a sentence type, which are set apart. -/
def sentenceName? (data : List UInt8) : Option String := do
  let address := (data.tail.takeWhile fun b => b != 0x2c && b != 0x2a).map
    fun b => Char.ofNat b.toNat
  if address.head? = some 'P' ∨ Text.Split.size address < 5 then
    return "NMEA-" ++ String.ofList address
  let (talker, kind) ← Text.Split.at? (Text.Split.size (address.take 2)) address
  return "NMEA-" ++ String.ofList talker ++ "-" ++ String.ofList kind

/-- The name of an RTCM3 frame: the message number, twelve bits after the head. -/
def correctionName (data : List UInt8) : String :=
  match data.drop Rtcm3.headSize with
  | high :: low :: _ => "RTCM3-" ++ toString ((256 * high.toNat + low.toNat) / 16)
  | _ => "RTCM3-?"

/-- The name of the message. -/
def name (m : Message) : String :=
  match m.protocol with
  | .ubx => (m.id?.map MessageId.name).getD "UBX-?"
  | .nmea => (sentenceName? m.data).getD "NMEA-?"
  | .rtcm3 => correctionName m.data
  | .garbage => Protocol.garbage.name

/-- One line about the contents, where there is something to say. -/
def info (m : Message) : Option String := m.id?.bind fun id => Report.describe id m.payload

end Message
end GnssLink.Stream
