import GnssLink.Number.Binary64
import GnssLink.Text.Pad
/-!
# GnssLink.Number.Fixed

**Numbers with a fixed count of decimal places.** `FixedFormat` says how a column of a report is
written and `FixedFormat.render` writes a double into it: the exact value is rounded to the places
asked for, a half going to the even neighbour (`divHalfEven`).

A negative number that rounds to zero keeps its sign. Zeros that fill a column stand between the
sign and the digits, also where the number has no digits.
-/

namespace GnssLink.Number

/-- The quotient rounded to the nearest whole number, a half going to the even neighbour. -/
def divHalfEven (n d : Nat) : Nat :=
  let q := n / d
  let r := 2 * (n % d)
  if r < d then q else if d < r then q + 1 else q + q % 2

/-- The rounded quotient is at most half a unit away. -/
theorem divHalfEven_mul_bounds {n d : Nat} (hd : 0 < d) :
    2 * n ≤ 2 * (divHalfEven n d * d) + d ∧ 2 * (divHalfEven n d * d) ≤ 2 * n + d := by
  have hn := Nat.div_add_mod n d
  have hr := Nat.mod_lt n hd
  have hq : d * (n / d) = n / d * d := Nat.mul_comm _ _
  unfold divHalfEven
  simp only
  split
  · omega
  · split
    · rw [Nat.add_mul]
      omega
    · rcases Nat.mod_two_eq_zero_or_one (n / d) with h | h
      · rw [h, Nat.add_zero]
        omega
      · rw [h, Nat.add_mul]
        omega

example : [5, 15, 25, 26].map (divHalfEven · 10) = [0, 2, 2, 3] := by decide

/-- How a column of numbers is written. -/
structure FixedFormat where
  /-- The decimal places. -/
  places : Nat
  /-- The least width of the column. -/
  width : Nat := 0
  /-- Whether a number that is not negative starts with a plus sign. -/
  plus : Bool := false
  /-- Whether the column is filled with zeros rather than blanks. -/
  zeros : Bool := false
  deriving DecidableEq, Repr

namespace FixedFormat

/-- The number `significand * 2 ^ exponent` in units of the last place. -/
def scaled (format : FixedFormat) (significand : Nat) (exponent : Int) : Nat :=
  divHalfEven (significand * Nat.pow 10 format.places * Nat.pow 2 exponent.toNat)
    (Nat.pow 2 (-exponent).toNat)

/-- The digits of a number without its sign. -/
def digits (format : FixedFormat) (significand : Nat) (exponent : Int) : String :=
  let units := format.scaled significand exponent
  let whole := toString (units / Nat.pow 10 format.places)
  if format.places = 0 then whole
  else whole ++ "." ++ Text.zeroPadded format.places (units % Nat.pow 10 format.places)

/-- The sign that a number is written with. -/
def sign (format : FixedFormat) (negative : Bool) : String :=
  if negative then "-" else if format.plus then "+" else ""

/-- Fills the column. -/
def fill (format : FixedFormat) (sign digits : String) : String :=
  if format.zeros then sign ++ Text.padLeft '0' (format.width - sign.length) digits
  else Text.padLeft ' ' format.width (sign ++ digits)

/-- Writes a number into the column. -/
def render (format : FixedFormat) (x : Float) : String :=
  match Binary64.ofFloat x with
  | .finite negative significand exponent =>
    format.fill (format.sign negative) (format.digits significand exponent)
  | .infinite negative => format.fill (format.sign negative) "inf"
  | .nan => format.fill "" "NaN"

end FixedFormat
end GnssLink.Number
