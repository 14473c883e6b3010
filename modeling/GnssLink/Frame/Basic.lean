import GnssLink.MessageId
import GnssLink.Frame.Checksum
import GnssLink.Text.Hex
/-!
# GnssLink.Frame.Basic

**UBX frames.** A frame is

    b5 62 | class | number | payload length (2 bytes) | payload | checksum (2 bytes)

with the checksum over everything from the class to the end of the payload (`Frame.body`).
`Frame.encode` writes a frame and `Frame.decode` reads a byte string that is exactly one frame.

The length field holds 16 bits: of a payload beyond 65535 bytes it keeps the low ones, and the
result does not decode.
-/

namespace GnssLink

/-- A UBX message with its payload. -/
structure Frame where
  id : MessageId
  payload : List UInt8
  deriving DecidableEq, Repr

/-- Why a byte string is not a frame. -/
inductive FrameError where
  | missingSync
  /-- The checksum received is not the one computed. -/
  | checksumMismatch (received computed : Nat)
  /-- The frame has another length than it must have. -/
  | wrongLength (expected actual : Nat)
  deriving DecidableEq, Repr

namespace FrameError

/-- The error in words; checksums are hexadecimal without leading zeros. -/
def message : FrameError → String
  | missingSync => "missing UBX sync characters"
  | checksumMismatch received computed =>
    "not valid packet\x27s checksum, expect " ++ Text.Hex.lower 1 received
      ++ ", got " ++ Text.Hex.lower 1 computed
  | wrongLength expected actual =>
    "invalid packet length, expect " ++ toString expected ++ ", got " ++ toString actual

end FrameError

namespace Frame

/-- The first sync byte. -/
def sync1 : UInt8 := 0xb5

/-- The second sync byte. -/
def sync2 : UInt8 := 0x62

/-- The bytes that a frame adds to its payload. -/
def overhead : Nat := 8

/-- The part that the checksum covers. -/
def body (f : Frame) : List UInt8 :=
  f.id.toBytes ++ LittleEndian.encode 2 f.payload.length ++ f.payload

/-- The frame on the wire. -/
def encode (f : Frame) : List UInt8 :=
  sync1 :: sync2 :: (f.body ++ (Checksum.ofBytes f.body).toBytes)

/-- Reads exactly one frame. Of several faults the length below the minimum comes first, then the
sync bytes, the length field and the checksum. -/
def decode (data : List UInt8) : Except FrameError Frame :=
  match data with
  | s1 :: s2 :: cls :: num :: len0 :: len1 :: rest =>
    let size := LittleEndian.decode [len0, len1]
    let payload := rest.take size
    let received := rest.drop size
    let computed := (Checksum.ofBytes (cls :: num :: len0 :: len1 :: payload)).toBytes
    if rest.length < 2 then .error (.wrongLength overhead data.length)
    else if s1 ≠ sync1 ∨ s2 ≠ sync2 then .error .missingSync
    else if rest.length ≠ size + 2 then .error (.wrongLength (size + overhead) data.length)
    else if received ≠ computed then
      .error (.checksumMismatch (LittleEndian.decode received) (LittleEndian.decode computed))
    else .ok ⟨⟨cls, num⟩, payload⟩
  | _ => .error (.wrongLength overhead data.length)

@[simp] theorem length_body (f : Frame) : f.body.length = f.payload.length + 4 := by
  simp [body, MessageId.toBytes]

@[simp] theorem length_encode (f : Frame) : f.encode.length = f.payload.length + overhead := by
  simp [encode, overhead]

end Frame
end GnssLink
