import GnssLink.Catalogue.Satellite
import GnssLink.Report.Units
/-!
# GnssLink.Report.Sky

**Satellites and signals in view.** Three messages list satellites or signals in blocks of fixed
size. A report names those of the complete blocks, at most as many as the message counts, in the
order of their numbers (`SignalId.le`) and not in that of the message.
-/

namespace GnssLink.Report

open LittleEndian

/-- A satellite, or one of its signals. -/
structure SignalId where
  system : UInt8
  /-- The satellite's number within the system. -/
  satellite : UInt8
  /-- The signal's number within the system, if it is a signal. -/
  signal : Option UInt8
  deriving DecidableEq, Repr

namespace SignalId

/-- The place in the order: by system, satellite and signal, satellites before their signals. -/
def rank (s : SignalId) : Nat :=
  (s.system.toNat * 256 + s.satellite.toNat) * 257 + (match s.signal with
    | none => 0
    | some n => n.toNat + 1)

/-- Whether the first does not come after the second. -/
def le (s t : SignalId) : Bool := s.rank ≤ t.rank

/-- The name of the satellite, with that of the signal in brackets. -/
def name (s : SignalId) : String :=
  match s.signal with
  | none => Catalogue.satelliteName s.system s.satellite
  | some n =>
    Catalogue.satelliteName s.system s.satellite ++ "(" ++ Catalogue.signalName s.system n ++ ")"

end SignalId

/-- The complete blocks of `size` bytes, at most `count` of them. -/
def blocks (size : Nat) : Nat → List UInt8 → List (List UInt8)
  | 0, _ => []
  | count + 1, bytes =>
    if (bytes.take size).length = size then
      bytes.take size :: blocks size count (bytes.drop size)
    else []

/-- The satellite that a block names in the two bytes at an offset. -/
def satelliteAt? (offset : Nat) (block : List UInt8) : Option SignalId := do
  return ⟨← block[offset]?, ← block[offset + 1]?, none⟩

/-- The signal that a block names in the three bytes at an offset. -/
def signalAt? (offset : Nat) (block : List UInt8) : Option SignalId := do
  return ⟨← block[offset]?, ← block[offset + 1]?, some (← block[offset + 2]?)⟩

/-- The names in order, each after a blank. -/
def inOrder (ids : List SignalId) : String :=
  String.join ((ids.mergeSort SignalId.le).map fun id => " " ++ id.name)

/-- The list of signals (NAV-SIG, version 0). -/
def signals (p : List UInt8) : Reading :=
  if p.length < 8 then some none
  else do
    let version ← unsigned? p 4 1
    if version ≠ 0 then return none
    let time ← weekTime? p 0
    let count ← unsigned? p 5 1
    let ids ← (blocks 16 count (p.drop 8)).mapM (signalAt? 0)
    return some (time ++ " " ++ toString count ++ inOrder ids)

/-- The list of satellites (NAV-SAT, version 1). -/
def satellites (p : List UInt8) : Reading :=
  if p.length < 8 then some none
  else do
    let version ← unsigned? p 4 1
    if version ≠ 1 then return none
    let time ← weekTime? p 0
    let count ← unsigned? p 5 1
    let ids ← (blocks 12 count (p.drop 8)).mapM (satelliteAt? 0)
    return some (time ++ " " ++ toString count ++ inOrder ids)

/-- The list of measurements (RXM-RAWX, version 1). The time of week is a double, and all the
blocks counted must be there. -/
def measurements (p : List UInt8) : Reading :=
  if p.length < 16 then some none
  else do
    let version ← unsigned? p 13 1
    if version ≠ 1 then return none
    let count ← unsigned? p 11 1
    if p.length ≠ 16 + 32 * count then return none
    let time ← unsigned? p 0 8
    let week ← unsigned? p 8 2
    let ids ← (blocks 32 count (p.drop 16)).mapM (signalAt? 20)
    return some (weekTime (Float.ofBits (UInt64.ofNat time)) ++ " " ++ Text.zeroPadded 4 week ++ " "
      ++ toString count ++ inOrder ids)

end GnssLink.Report
