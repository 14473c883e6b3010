import GnssLink.Report.Units
/-!
# GnssLink.Report.Navigation

**Positions, velocities and receiver status.** Each report checks the length of the payload, and
its version where the layout changed over time, and knows no other.
-/

namespace GnssLink.Report

open LittleEndian

/-- The time of week of a message that carries one at an offset. -/
def timeOnly (offset : Nat) (p : List UInt8) : Reading :=
  if p.length < offset + 4 then some none else (weekTime? p offset).map some

/-- A position in earth-centred coordinates (NAV-POSECEF). -/
def earthPosition (p : List UInt8) : Reading :=
  if p.length ≠ 20 then some none
  else do
    let time ← weekTime? p 0
    let x ← scaledSigned? p 4 4 1e-2
    let y ← scaledSigned? p 8 4 1e-2
    let z ← scaledSigned? p 12 4 1e-2
    let accuracy ← scaledUnsigned? p 16 4 1e-2
    return some (time ++ " " ++ places 2 x ++ "  " ++ places 2 y ++ "  " ++ places 2 z ++ "  "
      ++ places 2 accuracy)

/-- A coordinate in centimetres at one offset with its part in tenths of a millimetre at another,
in metres. -/
def fineCoordinate? (p : List UInt8) (offset fineOffset : Nat) : Option Float := do
  return (← scaledSigned? p offset 4 1e-2) + (← scaledSigned? p fineOffset 1 1e-4)

/-- A high precision position in earth-centred coordinates (NAV-HPPOSECEF, version 0). -/
def fineEarthPosition (p : List UInt8) : Reading :=
  if p.length ≠ 28 then some none
  else do
    let version ← unsigned? p 0 1
    if version ≠ 0 then return none
    let time ← weekTime? p 4
    let flags ← unsigned? p 23 1
    if hasBit flags 0 then return some (time ++ " invalid")
    let x ← fineCoordinate? p 8 20
    let y ← fineCoordinate? p 12 21
    let z ← fineCoordinate? p 16 22
    let accuracy ← scaledUnsigned? p 24 4 1e-4
    return some (time ++ " " ++ places 3 x ++ " " ++ places 3 y ++ " " ++ places 3 z ++ " "
      ++ places 3 accuracy)

/-- The flags of a relative position. -/
def baselineFlags (flags : Nat) : String :=
  (if hasBit flags 0 then "OK" else "masked") ++ " "
    ++ (if hasBit flags 1 then "diff" else "(diff)") ++ " "
    ++ carrierSolution (flags / 8 % 4)
    ++ " pos:" ++ yesNo (hasBit flags 2) ++ " head:" ++ yesNo (hasBit flags 8)
    ++ " moving:" ++ yesNo (hasBit flags 5) ++ " posMiss:" ++ yesNo (hasBit flags 6)
    ++ " obsMiss:" ++ yesNo (hasBit flags 7) ++ " norm:" ++ yesNo (hasBit flags 9)

/-- A relative position (NAV-RELPOSNED, version 1). -/
def baseline (p : List UInt8) : Reading :=
  if p.length ≠ 64 then some none
  else do
    let version ← unsigned? p 0 1
    if version ≠ 1 then return none
    let time ← weekTime? p 4
    let north ← fineCoordinate? p 8 32
    let east ← fineCoordinate? p 12 33
    let down ← fineCoordinate? p 16 34
    let length ← fineCoordinate? p 20 35
    let lengthAccuracy ← scaledUnsigned? p 48 4 1e-4
    let heading ← scaledSigned? p 24 4 1e-5
    let headingAccuracy ← scaledUnsigned? p 52 4 1e-5
    let flags ← unsigned? p 60 4
    return some (time ++ " N " ++ places 3 north ++ " E " ++ places 3 east ++ " D " ++ places 3 down
      ++ " L " ++ places 3 length ++ " (" ++ places 3 lengthAccuracy ++ ") H "
      ++ places 1 heading ++ " (" ++ places 1 headingAccuracy ++ ") " ++ baselineFlags flags)

/-- The times since start and to the first fix (NAV-STATUS). -/
def status (p : List UInt8) : Reading :=
  if p.length ≠ 16 then some none
  else do
    let time ← weekTime? p 0
    let firstFix ← scaledUnsigned? p 8 4 1e-3
    let sinceStart ← scaledUnsigned? p 12 4 1e-3
    return some (time ++ " ttff=" ++ places 3 firstFix ++ " sss=" ++ places 3 sinceStart)

/-- A velocity (NAV-VELNED). -/
def velocity (p : List UInt8) : Reading :=
  if p.length ≠ 36 then some none
  else do
    let time ← weekTime? p 0
    let north ← scaledSigned? p 4 4 1e-2
    let east ← scaledSigned? p 8 4 1e-2
    let down ← scaledSigned? p 12 4 1e-2
    let speed ← scaledUnsigned? p 16 4 1e-2
    let ground ← scaledUnsigned? p 20 4 1e-2
    let accuracy ← scaledUnsigned? p 28 4 1e-2
    let heading ← scaledSigned? p 24 4 1e-5
    let headingAccuracy ← scaledUnsigned? p 32 4 1e-5
    return some (time ++ " N " ++ places 2 north ++ " E " ++ places 2 east ++ " D " ++ places 2 down
      ++ " speed " ++ places 2 speed ++ " ground " ++ places 2 ground
      ++ " (" ++ places 2 accuracy ++ ") heading " ++ places 1 heading
      ++ " (" ++ places 1 headingAccuracy ++ ")")

end GnssLink.Report
