import GnssLink.Stream.Crc24
import GnssLink.Stream.Verdict
/-!
# GnssLink.Stream.Rtcm3

**RTCM3 frames in a stream.** A frame is

    d3 | 6 zero bits, 10 bits payload length | payload | check (3 bytes)

with the check over everything before it. The length and the check are written most significant
byte first.
-/

namespace GnssLink.Stream.Rtcm3

/-- The byte that opens a frame. -/
def sync : UInt8 := 0xd3

/-- The bytes before the payload. -/
def headSize : Nat := 3

/-- The bytes that a frame adds to its payload. -/
def overhead : Nat := 6

/-- What stands at the start of a buffer whose first byte is the sync byte. -/
def recognize : List UInt8 → Verdict
  | first :: high :: low :: rest =>
    if 4 ≤ high then .noMatch
    else
      let size := 256 * high.toNat + low.toNat
      match rest.drop size with
      | c0 :: c1 :: c2 :: _ =>
        if Crc24.toBytes (Crc24.ofBytes (first :: high :: low :: rest.take size)) = [c0, c1, c2] then
          .frame .rtcm3 (size + overhead)
        else .noMatch
      | _ => .needMore
  | _ => .needMore

end GnssLink.Stream.Rtcm3
