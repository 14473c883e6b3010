import GnssLink.Text.Numeral
import GnssLink.Text.Split
/-!
# GnssLink.Endpoint

**Where to find the receiver.** An endpoint is written as

    ser://<device>[@<baud rate>]    or just    <device>[@<baud rate>]
    tcp://<host>:<number>

What follows the last `@` of a device, or the last `:` of an address, is a number. A device or a
host must not be empty, and a device has no `://` in its name.
-/

namespace GnssLink

/-- A place where a receiver may be connected. -/
inductive Endpoint where
  /-- A serial device, at a fixed baud rate if one is given. -/
  | serial (path : String) (baud : Option UInt32)
  /-- A network address. -/
  | tcp (host : String) (number : UInt16)
  deriving DecidableEq, Repr

/-- A text that names no endpoint. -/
structure InvalidEndpoint where
  text : String
  deriving DecidableEq, Repr

/-- The error in words. -/
def InvalidEndpoint.message (e : InvalidEndpoint) : String := "invalid port \x27" ++ e.text ++ "\x27"

namespace Endpoint

/-- What comes before a network address. -/
def tcpScheme : List Char := "tcp://".toList

/-- What may come before a device. -/
def serialScheme : List Char := "ser://".toList

/-- What ends the name of a scheme. -/
def schemeMark : List Char := "://".toList

/-- Whether the mark of a scheme stands anywhere in a text. -/
def hasSchemeMark : List Char → Bool
  | [] => false
  | c :: rest => schemeMark.isPrefixOf (c :: rest) || hasSchemeMark rest

/-- Reads a network address. -/
def ofAddress? (address : List Char) : Option Endpoint := do
  let (host, digits) ← Text.Split.atLast? ':' address
  let number ← Text.Numeral.natural? 10 (UInt16.size - 1) digits
  if host.isEmpty then none else return .tcp (String.ofList host) (UInt16.ofNat number)

/-- The device and the baud rate of a text; `none` if the baud rate is no number. -/
def splitBaud? (device : List Char) : Option (List Char × Option UInt32) :=
  match Text.Split.atLast? '@' device with
  | none => some (device, none)
  | some (path, baud) =>
    (Text.Numeral.natural? 10 (UInt32.size - 1) baud).map fun n => (path, some (UInt32.ofNat n))

/-- Reads a serial device. -/
def ofDevice? (device : List Char) : Option Endpoint := do
  let (path, baud) ← splitBaud? device
  if path.isEmpty || hasSchemeMark path then none else return .serial (String.ofList path) baud

/-- Reads an endpoint. -/
def ofChars? (text : List Char) : Option Endpoint :=
  match tcpScheme.isPrefixOf? text with
  | some address => ofAddress? address
  | none => ofDevice? ((serialScheme.isPrefixOf? text).getD text)

/-- Reads an endpoint, or answers the text that is none. -/
def parse (text : String) : Except InvalidEndpoint Endpoint :=
  match ofChars? text.toList with
  | some endpoint => .ok endpoint
  | none => .error ⟨text⟩

/-- The endpoint in its full form. -/
protected def toString : Endpoint → String
  | serial path (some baud) => "ser://" ++ path ++ "@" ++ toString baud.toNat
  | serial path none => "ser://" ++ path
  | tcp host number => "tcp://" ++ host ++ ":" ++ toString number.toNat

/-- The baud rate that the endpoint must be used with. -/
def fixedBaud? : Endpoint → Option UInt32
  | serial _ baud => baud
  | tcp _ _ => none

end Endpoint
end GnssLink
