import GnssLink.Bytes.LittleEndian
import GnssLink.Number.Fixed
/-!
# GnssLink.Report.Units

**Numbers of a report.** Payloads carry whole numbers in units such as millimetres or hundred
thousandths of a degree. A report multiplies them in double precision and writes the product with
a fixed count of decimal places.
-/

namespace GnssLink.Report

open LittleEndian

/-- What a report makes of a payload. It has no result if it reads past the end of the payload, and
its result is `none` if the payload is not one that it knows. -/
abbrev Reading := Option (Option String)

/-- The product of a whole number and the unit it counts. -/
def scaled (raw : Int) (unit : Float) : Float := Float.ofInt raw * unit

/-- A number with some decimal places and no padding. -/
def places (n : Nat) (x : Float) : String := Number.FixedFormat.render { places := n } x

/-- A time of week in seconds, in ten columns. -/
def weekTime (seconds : Float) : String :=
  Number.FixedFormat.render { places := 3, width := 10, zeros := true } seconds

/-- The time of week in milliseconds that stands at an offset, in seconds. -/
def weekTime? (p : List UInt8) (offset : Nat) : Option String :=
  (unsigned? p offset 4).map fun n : Nat => weekTime (scaled n 1e-3)

/-- An unsigned field times its unit. -/
def scaledUnsigned? (p : List UInt8) (offset width : Nat) (unit : Float) : Option Float :=
  (unsigned? p offset width).map fun n : Nat => scaled n unit

/-- A signed field times its unit. -/
def scaledSigned? (p : List UInt8) (offset width : Nat) (unit : Float) : Option Float :=
  (signed? p offset width).map fun n => scaled n unit

/-- Whether a bit is set. -/
def hasBit (flags bit : Nat) : Bool := flags.testBit bit

/-- A flag as a letter. -/
def yesNo (flag : Bool) : String := if flag then "Y" else "N"

/-- How far the carrier phase ambiguities are solved. -/
def carrierSolution : Nat → String
  | 0 => "none"
  | 1 => "float"
  | 2 => "fixed"
  | _ => "rtk?"

end GnssLink.Report
