import GnssLink.Bytes.LittleEndian
/-!
# GnssLink.Frame.Checksum

**The frame checksum**: two running sums modulo 256, the second adding up the states of the first
(an 8-bit Fletcher checksum).
-/

namespace GnssLink

/-- The two sums over the bytes so far. -/
structure Checksum where
  /-- The sum of the bytes. -/
  a : UInt8 := 0
  /-- The sum of the values that `a` took. -/
  b : UInt8 := 0
  deriving DecidableEq, Repr

namespace Checksum

/-- Takes in one byte. -/
def add (c : Checksum) (byte : UInt8) : Checksum where
  a := c.a + byte
  b := c.b + (c.a + byte)

/-- The checksum of a sequence of bytes. -/
def ofBytes (bytes : List UInt8) : Checksum := bytes.foldl add {}

/-- The checksum as it closes a frame. -/
def toBytes (c : Checksum) : List UInt8 := [c.a, c.b]

@[simp] theorem length_toBytes (c : Checksum) : c.toBytes.length = 2 := rfl

end Checksum
end GnssLink
