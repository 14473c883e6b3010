import GnssLink.Text.Pad
/-!
# GnssLink.Text.Hex

**Hexadecimal numerals**, with leading zeros up to a width, and the value of a single digit.
-/

namespace GnssLink.Text.Hex

/-- Lower case digits, at least `width` of them. -/
def lower (width n : Nat) : String := padLeft '0' width (String.ofList (Nat.toDigits 16 n))

/-- Upper case digits, at least `width` of them. -/
def upper (width n : Nat) : String :=
  padLeft '0' width (String.ofList ((Nat.toDigits 16 n).map Char.toUpper))

/-- The value of a digit of either case. -/
def digit? (c : Char) : Option Nat :=
  if '0' ≤ c ∧ c ≤ '9' then some (c.toNat - '0'.toNat)
  else if 'a' ≤ c ∧ c ≤ 'f' then some (c.toNat - 'a'.toNat + 10)
  else if 'A' ≤ c ∧ c ≤ 'F' then some (c.toNat - 'A'.toNat + 10)
  else none

end GnssLink.Text.Hex
