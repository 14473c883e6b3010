import GnssLink.Bytes.LittleEndian
import GnssLink.Config.Layers
/-!
# GnssLink.Config.Query

**Requests for configuration items.** A receiver answers at most `pageSize` items at once; the
position in a request skips the items that earlier pages gave.
-/

namespace GnssLink.Config.Query

/-- The most items in one answer, and the most keys in one request. -/
def pageSize : Nat := 64

/-- The bytes that come before the items of an answer. -/
def headSize : Nat := 4

/-- The payload that asks for the items of `keys` from a position on. -/
def payload (layer : Layer) (position : UInt16) (keys : List UInt32) : List UInt8 :=
  0x00 :: layer.code :: (LittleEndian.encode 2 position.toNat
    ++ keys.flatMap fun key => LittleEndian.encode 4 key.toNat)

end GnssLink.Config.Query
