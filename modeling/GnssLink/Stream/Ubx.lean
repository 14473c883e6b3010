import GnssLink.Frame.Basic
import GnssLink.Stream.Verdict
/-!
# GnssLink.Stream.Ubx

**UBX frames in a stream.** A length field beyond `maxPayload` is taken for a false sync, so a
frame that is waited for is never longer than that.
-/

namespace GnssLink.Stream.Ubx

/-- The longest payload of a frame in a stream. -/
def maxPayload : Nat := 4096

/-- What stands at the start of a buffer whose first byte is the first sync byte. -/
def recognize : List UInt8 → Verdict
  | _ :: second :: rest =>
    if second ≠ Frame.sync2 then .noMatch
    else
      match rest with
      | cls :: num :: len0 :: len1 :: rest =>
        let size := LittleEndian.decode [len0, len1]
        if maxPayload < size then .noMatch
        else
          match rest.drop size with
          | a :: b :: _ =>
            if Checksum.ofBytes (cls :: num :: len0 :: len1 :: rest.take size) = ⟨a, b⟩ then
              .frame .ubx (size + Frame.overhead)
            else .noMatch
          | _ => .needMore
      | _ => .needMore
  | _ => .needMore

end GnssLink.Stream.Ubx
