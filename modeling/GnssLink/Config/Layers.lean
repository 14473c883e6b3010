/-!
# GnssLink.Config.Layers

**Configuration layers.** A write goes to a set of layers (`Layers`), a read takes one layer
(`Layer`), which may also be the built-in defaults.

A set keeps bits that name no layer: they are sent as they are, and they count when it is asked
whether the set is empty.
-/

namespace GnssLink.Config

/-- A set of layers to write to, as a bit mask. -/
structure Layers where
  /-- Bit 0 is RAM, bit 1 battery-backed RAM, bit 2 flash. -/
  bits : UInt8
  deriving DecidableEq, Repr

namespace Layers

/-- The layers that a set may name, each with its mask and its name. -/
def named : List (UInt8 × String) := [(1, "RAM"), (2, "BBR"), (4, "Flash")]

/-- All three layers. -/
def all : Layers := ⟨7⟩

/-- The set with the chosen layers. -/
def ofFlags (ram bbr flash : Bool) : Layers :=
  ⟨(if ram then 1 else 0) ||| (if bbr then 2 else 0) ||| (if flash then 4 else 0)⟩

/-- Whether no bit is set. -/
def isEmpty (layers : Layers) : Bool := layers.bits == 0

/-- Whether all bits of a mask are set. -/
def contains (layers : Layers) (mask : UInt8) : Bool := layers.bits &&& mask == mask

/-- The names of the layers in the set, divided by commas. -/
protected def toString (layers : Layers) : String :=
  ",".intercalate ((named.filter fun entry => layers.contains entry.1).map Prod.snd)

end Layers

/-- A layer to read from. -/
inductive Layer where
  /-- The current configuration. -/
  | ram
  /-- Battery-backed RAM. -/
  | bbr
  /-- Flash memory. -/
  | flash
  /-- The built-in defaults. -/
  | default
  deriving DecidableEq, Repr

namespace Layer

/-- The number of the layer in a request. -/
def code : Layer → UInt8
  | ram => 0
  | bbr => 1
  | flash => 2
  | default => 7

end Layer
end GnssLink.Config
