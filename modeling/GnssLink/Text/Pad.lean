/-!
# GnssLink.Text.Pad

**Columns.** Text filled up to a width counted in characters; longer text is left as it is.
-/

namespace GnssLink.Text

/-- The text at the right end of a column, filled with `fill` on the left. -/
def padLeft (fill : Char) (width : Nat) (text : String) : String :=
  String.ofList (List.replicate (width - text.length) fill) ++ text

/-- The text at the left end of a column, filled with blanks on the right. -/
def padRight (width : Nat) (text : String) : String :=
  text ++ String.ofList (List.replicate (width - text.length) ' ')

/-- A number right-aligned among blanks. -/
def column (width : Nat) (n : Nat) : String := padLeft ' ' width (toString n)

/-- A number with leading zeros up to `width` digits. -/
def zeroPadded (width : Nat) (n : Nat) : String := padLeft '0' width (toString n)

/-- An integer with zeros between its sign and its digits; the sign counts as a column. -/
def zeroPaddedInt (width : Nat) (n : Int) : String :=
  if n < 0 then "-" ++ zeroPadded (width - 1) n.natAbs else zeroPadded width n.natAbs

end GnssLink.Text
