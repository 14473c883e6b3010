import GnssLink.Bytes.LittleEndian
import GnssLink.Config.Key
/-!
# GnssLink.Config.Value

**Values of configuration items.** A value holds the bits found on the wire. Whether four bytes
are a count, a signed number or a single precision float is known to the item's definition alone,
so the readings `unsigned` and `signed` take the number of bytes that they look at.
-/

namespace GnssLink.Config

/-- The bits of a value, by width. -/
inductive Value where
  | bit (b : Bool)
  | one (n : UInt8)
  | two (n : UInt16)
  | four (n : UInt32)
  | eight (n : UInt64)
  deriving DecidableEq, Repr

namespace Value

/-- How the value is stored. -/
def width : Value → Width
  | bit _ => .bit
  | one _ => .one
  | two _ => .two
  | four _ => .four
  | eight _ => .eight

/-- The bits as a number. -/
def raw : Value → Nat
  | bit b => b.toNat
  | one n => n.toNat
  | two n => n.toNat
  | four n => n.toNat
  | eight n => n.toNat

/-- The value of a width with the given bits. Bits beyond the width are dropped, and any number
but zero sets a single bit. -/
def ofRaw (n : Nat) : Width → Value
  | .bit => bit (n != 0)
  | .one => one (UInt8.ofNat n)
  | .two => two (UInt16.ofNat n)
  | .four => four (UInt32.ofNat n)
  | .eight => eight (UInt64.ofNat n)

/-- The value that holds an integer in two's complement. -/
def ofInt (n : Int) (w : Width) : Value := ofRaw (n % Int.ofNat (LittleEndian.range w.bytes)).toNat w

/-- The low `bytes` bytes as an unsigned number; missing ones are zero. -/
def unsigned (bytes : Nat) (v : Value) : Nat := v.raw % LittleEndian.range bytes

/-- The low `bytes` bytes as a two's complement number; missing ones are zero. -/
def signed (bytes : Nat) (v : Value) : Int := Int.bmod (Int.ofNat v.raw) (LittleEndian.range bytes)

/-- Whether any bit is set. -/
def isSet (v : Value) : Bool := v.raw != 0

/-- The value on the wire. -/
def toBytes (v : Value) : List UInt8 := LittleEndian.encode v.width.bytes v.raw

/-- Reads a value of the given width. -/
def ofBytes (bytes : List UInt8) (w : Width) : Value := ofRaw (LittleEndian.decode bytes) w

@[simp] theorem length_toBytes (v : Value) : v.toBytes.length = v.width.bytes := by
  simp [toBytes]

@[simp] theorem width_ofRaw (n : Nat) (w : Width) : (ofRaw n w).width = w := by
  cases w <;> rfl

end Value
end GnssLink.Config
