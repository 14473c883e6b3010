import GnssLink.Text.Pad
/-!
# GnssLink.Catalogue.Satellite

**Names of navigation systems, satellites and signals.** What is unknown is called `?`.
-/

namespace GnssLink.Catalogue

/-- A navigation system: its number, its name, the letter of its satellites and their range. -/
structure Constellation where
  /-- The number used in messages. -/
  id : UInt8
  name : String
  /-- What the names of the satellites start with. -/
  letter : String
  first : Nat
  count : Nat
  /-- How many digits a satellite's number is written with. -/
  digits : Nat := 2

/-- The known navigation systems. -/
def constellations : List Constellation := [
  { id := 0, name := "GPS", letter := "G", first := 1, count := 32 },
  { id := 1, name := "SBAS", letter := "S", first := 120, count := 39, digits := 0 },
  { id := 2, name := "GAL", letter := "E", first := 1, count := 36 },
  { id := 3, name := "BDS", letter := "B", first := 1, count := 63 },
  { id := 5, name := "QZSS", letter := "Q", first := 1, count := 10 },
  { id := 6, name := "GLO", letter := "R", first := 1, count := 32 }]

/-- The navigation system with a number. -/
def constellation? (system : UInt8) : Option Constellation :=
  constellations.find? fun c => c.id == system

/-- The name of a navigation system. -/
def systemName (system : UInt8) : String :=
  match constellation? system with
  | some c => c.name
  | none => "?"

/-- The name of a satellite, such as `G05`. -/
def satelliteName (system satellite : UInt8) : String :=
  match constellation? system with
  | none => "?"
  | some c =>
    if c.first ≤ satellite.toNat ∧ satellite.toNat < c.first + c.count then
      c.letter ++ Text.zeroPadded c.digits satellite.toNat
    else c.letter ++ "?"

/-- The known signals: system, signal number and name. -/
def signals : List (UInt8 × UInt8 × String) := [
  (0, 0, "L1CA"), (0, 3, "L2CL"), (0, 4, "L2CM"), (0, 6, "L5I"), (0, 7, "L5Q"),
  (1, 0, "L1CA"),
  (2, 0, "E1C"), (2, 1, "E1B"), (2, 3, "E5AI"), (2, 4, "E5AQ"), (2, 5, "E5BI"), (2, 6, "E5BQ"),
  (3, 0, "B1ID1"), (3, 1, "B1ID2"), (3, 2, "B2ID1"), (3, 3, "B2ID2"), (3, 7, "B2AP"),
  (5, 0, "L1CA"), (5, 1, "L1S"), (5, 4, "L2CM"), (5, 5, "L2CL"),
  (6, 0, "L1OF"), (6, 2, "L2OF")]

/-- The name of a signal of a navigation system. -/
def signalName (system signal : UInt8) : String :=
  match signals.find? fun entry => entry.1 == system && entry.2.1 == signal with
  | some (_, _, name) => name
  | none => "?"

end GnssLink.Catalogue
