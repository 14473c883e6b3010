import GnssLink.Text.Hex
/-!
# GnssLink.Config.Key

**Keys of configuration items.** A key is a 32-bit number; bits 28 to 30 tell how wide the value
is, so a list of items needs no further framing. Keys without a defined width are reserved.
-/

namespace GnssLink.Config

/-- How a value is stored. -/
inductive Width where
  /-- One bit, in a byte of its own. -/
  | bit
  | one
  | two
  | four
  | eight
  deriving DecidableEq, Repr

/-- The number of bytes that a value of this width takes. -/
def Width.bytes : Width → Nat
  | bit | one => 1
  | two => 2
  | four => 4
  | eight => 8

/-- The number that names a configuration item. -/
structure Key where
  /-- The number as it stands on the wire. -/
  id : UInt32
  deriving DecidableEq, Repr

namespace Key

/-- The width of the item's value, `none` for the reserved codes. -/
def width? (key : Key) : Option Width :=
  match key.id.toNat / 0x10000000 % 8 with
  | 1 => some .bit
  | 2 => some .one
  | 3 => some .two
  | 4 => some .four
  | 5 => some .eight
  | _ => none

/-- The group of items, bits 16 to 23. -/
def group (key : Key) : Nat := key.id.toNat / 0x10000 % 0x100

/-- The item within the group, bits 0 to 11. -/
def item (key : Key) : Nat := key.id.toNat % 0x1000

/-- The key as a hexadecimal numeral of eight digits. -/
protected def toString (key : Key) : String := "0x" ++ Text.Hex.lower 8 key.id.toNat

end Key
end GnssLink.Config
