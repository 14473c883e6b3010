import GnssLink.Report.Time
import GnssLink.Report.Units
/-!
# GnssLink.Report.Fix

**The navigation solution** (NAV-PVT): time, quality and position of a fix in one line. Only the
payload of 92 bytes is known.
-/

namespace GnssLink.Report

open LittleEndian

/-- The fields of a navigation solution that are reported. -/
structure Fix where
  /-- Time of week in milliseconds. -/
  itow : Nat
  year : Nat
  month : Nat
  day : Nat
  hour : Nat
  minute : Nat
  second : Nat
  /-- Bit 0: the date is valid; bit 1: the time is. -/
  valid : Nat
  /-- Nanoseconds to add to the second. -/
  nano : Int
  kind : Nat
  /-- Bit 0: the fix passes the masks; from bit 6: the carrier solution. -/
  flags : Nat
  /-- Bit 6: the date is confirmed; bit 7: the time is. -/
  confirmed : Nat
  satellites : Nat
  /-- Longitude in units of 1e-7 degrees. -/
  longitude : Int
  /-- Latitude in units of 1e-7 degrees. -/
  latitude : Int
  /-- Height above the ellipsoid in millimetres. -/
  height : Int
  /-- Horizontal accuracy in millimetres. -/
  horizontal : Nat
  /-- Vertical accuracy in millimetres. -/
  vertical : Nat
  /-- Position dilution of precision in units of 0.01. -/
  dilution : Nat

namespace Fix

/-- The length of the payload. -/
def size : Nat := 92

/-- Reads the payload. -/
def ofPayload? (p : List UInt8) : Option Fix := do
  return {
    itow := ← unsigned? p 0 4, year := ← unsigned? p 4 2, month := ← unsigned? p 6 1
    day := ← unsigned? p 7 1, hour := ← unsigned? p 8 1, minute := ← unsigned? p 9 1
    second := ← unsigned? p 10 1, valid := ← unsigned? p 11 1, nano := ← signed? p 16 4
    kind := ← unsigned? p 20 1, flags := ← unsigned? p 21 1, confirmed := ← unsigned? p 22 1
    satellites := ← unsigned? p 23 1, longitude := ← signed? p 24 4
    latitude := ← signed? p 28 4, height := ← signed? p 32 4
    horizontal := ← unsigned? p 40 4, vertical := ← unsigned? p 44 4
    dilution := ← unsigned? p 76 2 }

/-- A part of the time is confirmed (`Y`), valid (`y`) or neither (`n`). -/
def validity (valid confirmed : Bool) : String :=
  if !valid then "n" else if confirmed then "Y" else "y"

/-- The kind of fix in words. -/
def kindName : Nat → String
  | 0 => "nofix"
  | 1 => "dr"
  | 2 => "2D"
  | 3 => "3D"
  | 4 => "3D+DR"
  | 5 => "time"
  | _ => "?"

/-- The date with its validity. -/
def date (f : Fix) : String :=
  Text.zeroPadded 4 f.year ++ "-" ++ Text.zeroPadded 2 f.month ++ "-" ++ Text.zeroPadded 2 f.day
    ++ " (" ++ validity (hasBit f.valid 0) (hasBit f.confirmed 6) ++ ")"

/-- The seconds and milliseconds of the time of day. -/
def seconds (f : Fix) : String :=
  Text.zeroPaddedInt 2 (roundToMillis f.second f.nano).1 ++ "."
    ++ Text.zeroPaddedInt 3 (roundToMillis f.second f.nano).2

/-- The time of day with its validity. -/
def time (f : Fix) : String :=
  Text.zeroPadded 2 f.hour ++ ":" ++ Text.zeroPadded 2 f.minute ++ ":" ++ f.seconds
    ++ " (" ++ validity (hasBit f.valid 1) (hasBit f.confirmed 7) ++ ")"

/-- The kind of fix, whether it passes the masks, and the carrier solution. -/
def quality (f : Fix) : String :=
  kindName f.kind ++ " (" ++ (if hasBit f.flags 0 then "OK" else "masked") ++ ", "
    ++ carrierSolution (f.flags / 64) ++ ")"

/-- The position in columns, each coordinate followed by what bounds it. -/
def position (f : Fix) : String :=
  Number.FixedFormat.render { places := 7, width := 11, plus := true } (scaled f.latitude 1e-7)
    ++ " "
    ++ Number.FixedFormat.render { places := 7, width := 12, plus := true }
        (scaled f.longitude 1e-7)
    ++ " ("
    ++ Number.FixedFormat.render { places := 1, width := 5 } (scaled f.horizontal 1e-3)
    ++ ") "
    ++ Number.FixedFormat.render { places := 0, width := 6, plus := true } (scaled f.height 1e-3)
    ++ " ("
    ++ Number.FixedFormat.render { places := 1, width := 5 } (scaled f.vertical 1e-3) ++ ")"

/-- The fix in one line. -/
def render (f : Fix) : String :=
  weekTime (scaled f.itow 1e-3) ++ " " ++ f.date ++ " " ++ f.time ++ " " ++ f.quality ++ " "
    ++ Text.column 2 f.satellites ++ " "
    ++ Number.FixedFormat.render { places := 2, width := 4 } (scaled f.dilution 1e-2) ++ " "
    ++ f.position

end Fix

/-- The report on a navigation solution. -/
def fix (p : List UInt8) : Reading :=
  if p.length ≠ Fix.size then some none else (Fix.ofPayload? p).map fun f => some f.render

end GnssLink.Report
