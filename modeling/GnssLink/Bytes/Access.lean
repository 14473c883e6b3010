/-!
# GnssLink.Bytes.Access

**Accesses that may miss.** Taking a part of a byte string, and taking one number from another, have
no result where there is none: the part reaches past the end, or the number is too small. For a
single byte the library has `bytes[i]?`, and `LittleEndian.unsigned?` reads a word.
-/

namespace GnssLink

/-- The difference of two numbers, if the second is not greater. -/
def sub? (a b : Nat) : Option Nat := if b ≤ a then some (a - b) else none

theorem sub?_eq_some {a b : Nat} (h : b ≤ a) : sub? a b = some (a - b) := if_pos h

/-- The elements from `start` up to `stop`, if the list has that many. -/
def slice? {α : Type} (l : List α) (start stop : Nat) : Option (List α) :=
  if start ≤ stop ∧ stop ≤ l.length then some ((l.take stop).drop start) else none

theorem slice?_eq_some {α : Type} {l : List α} {start stop : Nat} (h : start ≤ stop)
    (hstop : stop ≤ l.length) : slice? l start stop = some ((l.take stop).drop start) :=
  if_pos ⟨h, hstop⟩

/-- The first elements. -/
theorem slice?_zero {α : Type} {l : List α} {stop : Nat} (hstop : stop ≤ l.length) :
    slice? l 0 stop = some (l.take stop) :=
  slice?_eq_some (Nat.zero_le _) hstop

/-- The last elements. -/
theorem slice?_length {α : Type} {l : List α} {start : Nat} (h : start ≤ l.length) :
    slice? l start l.length = some (l.drop start) := by
  rw [slice?_eq_some h (Nat.le_refl _), List.take_length]

end GnssLink
