import GnssLink.Text.Hex
/-!
# GnssLink.Text.Numeral

**Reading numerals.** A numeral is a run of ASCII digits of a base, at least one, and nothing else;
one plus sign may stand before it. A number beyond the limit of its field is refused
(`natural?`). `integer?` also takes a minus sign.
-/

namespace GnssLink.Text.Numeral

/-- The number that digits stand for, `n` being the value of the digits before them. -/
def value? (base : Nat) : Nat → List Char → Option Nat
  | n, [] => some n
  | n, c :: rest =>
    match Hex.digit? c with
    | some d => if d < base then value? base (base * n + d) rest else none
    | none => none

/-- The number that one or more digits stand for. -/
def digits? (base : Nat) (text : List Char) : Option Nat :=
  if text.isEmpty then none else value? base 0 text

/-- The text without a plus sign at its start. -/
def withoutPlus : List Char → List Char
  | '+' :: rest => rest
  | text => text

/-- The number that a text stands for, if it is at most `limit`. -/
def natural? (base limit : Nat) (text : List Char) : Option Nat :=
  (digits? base (withoutPlus text)).filter fun n => n ≤ limit

/-- The whole number that a decimal text stands for. -/
def integer? : List Char → Option Int
  | '-' :: rest => (digits? 10 rest).map fun n => -(n : Int)
  | text => (digits? 10 (withoutPlus text)).map fun n => (n : Int)

example : natural? 10 255 "+0255".toList = some 255 ∧ natural? 10 255 "256".toList = none
    ∧ natural? 10 255 "".toList = none ∧ natural? 10 255 "++1".toList = none := by decide

end GnssLink.Text.Numeral
