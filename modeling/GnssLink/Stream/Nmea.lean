import GnssLink.Stream.Verdict
import GnssLink.Text.Hex
/-!
# GnssLink.Stream.Nmea

**NMEA sentences in a stream.** A sentence is

    $ | body | * | two hexadecimal digits | CR LF

where the body is printable ASCII and the digits give the exclusive or of its bytes (`parity`).
The text between `$` and CR is the sentence's *line*. It has at most `maxLine` bytes; a stream that
goes on longer without CR holds no sentence here.
-/

namespace GnssLink.Stream.Nmea

/-- The dollar sign that opens a sentence. -/
def dollar : UInt8 := 0x24

/-- The star before the check digits. -/
def star : UInt8 := 0x2a

/-- Carriage return. -/
def cr : UInt8 := 0x0d

/-- Line feed. -/
def lf : UInt8 := 0x0a

/-- Whether a byte may stand in a line. -/
def isText (b : UInt8) : Bool := 0x20 ≤ b && b ≤ 0x7e

/-- The longest line. -/
def maxLine : Nat := 81

/-- The shortest line: an address of five characters and the three characters after the body. -/
def minLine : Nat := 8

/-- The exclusive or of all bytes. -/
def parity (body : List UInt8) : UInt8 := body.foldl (· ^^^ ·) 0

/-- The number that two hexadecimal digits of either case stand for. -/
def digits? (high low : UInt8) : Option Nat := do
  let high ← Text.Hex.digit? (Char.ofNat high.toNat)
  let low ← Text.Hex.digit? (Char.ofNat low.toNat)
  return 16 * high + low

/-- Whether a line ends with a star and the check digits of what comes before. -/
def isSealed (line : List UInt8) : Bool :=
  match line.drop (line.length - 3) with
  | [mark, high, low] =>
    mark == star && digits? high low == some (parity (line.take (line.length - 3))).toNat
  | _ => false

/-- What stands at the start of a buffer whose first byte is a dollar sign; `tail` is the rest of
the buffer. -/
def recognizeTail (tail : List UInt8) : Verdict :=
  let line := (tail.take maxLine).takeWhile isText
  match tail.drop line.length with
  | [] => .needMore
  | stop :: after =>
    if line.length = maxLine ∨ stop ≠ cr then .noMatch
    else
      match after with
      | [] => .needMore
      | last :: _ =>
        if last = lf ∧ minLine ≤ line.length ∧ isSealed line then .frame .nmea (line.length + 3)
        else .noMatch

/-- What stands at the start of a buffer whose first byte is a dollar sign. -/
def recognize (buffer : List UInt8) : Verdict := recognizeTail buffer.tail

end GnssLink.Stream.Nmea
