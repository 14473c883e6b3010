import GnssLink.Link.Basic
/-!
# GnssLink.Link.Capture

**A recorded stream played as a link.** It is read from the start to the end without any time
passing, and its end is a fault. Nobody hears what is written to it, and it has no baud rate.
-/

namespace GnssLink

/-- The part of a recording that was not played yet. -/
structure Capture where
  /-- The bytes to come. -/
  bytes : List UInt8
  deriving DecidableEq, Repr

namespace Capture

/-- The fault at the end of a recording. -/
def ended : Fault := ⟨"connection closed by peer"⟩

/-- The fault when a baud rate is set. -/
def noBaudRate : Fault := ⟨"transport has no baud rate"⟩

/-- Plays the next bytes. -/
def read (c : Capture) : Except Fault (List UInt8) × Capture :=
  if c.bytes.isEmpty then (.error ended, c)
  else (.ok (c.bytes.take readSize), ⟨c.bytes.drop readSize⟩)

theorem length_of_read {c c' : Capture} {data : List UInt8} (h : c.read = (.ok data, c')) :
    data.length + c'.bytes.length = c.bytes.length ∧ c'.bytes.length < c.bytes.length := by
  unfold read at h
  split at h
  · cases h
  · next hne =>
    cases h
    have : 0 < c.bytes.length := List.length_pos_iff.mpr fun h => hne (by simp [h])
    simp only [List.length_take, List.length_drop, readSize]
    omega

instance : Link Capture where
  now _ := 0
  baudRate _ := none
  read := read
  write _ c := (.ok (), c)
  setBaudRate _ c := (.error noBaudRate, c)
  clearInput c := (.ok (), c)
  supply c := c.bytes.length
  supply_of_read h := Nat.le_of_eq (length_of_read h).1
  progress_of_read h := Or.inl (length_of_read h).2
  supply_write_le _ _ := Nat.le_refl _
  supply_setBaudRate_le _ _ := Nat.le_refl _
  supply_clearInput_le _ := Nat.le_refl _

end Capture
end GnssLink
