import GnssLink.Bytes.Access
import GnssLink.Catalogue.Message
import GnssLink.Config.Write
import GnssLink.Report.Units
/-!
# GnssLink.Report.Control

**Notices, configuration messages and acknowledgements.**
-/

namespace GnssLink.Report

open LittleEndian

/-- A byte as a character of ASCII, a point in place of what cannot be shown. -/
def printable (b : UInt8) : Char :=
  if 0x20 ≤ b ∧ b ≤ 0x7e then Char.ofNat b.toNat else '.'

/-- The text of a notice. -/
def notice (p : List UInt8) : String := String.ofList (p.map printable)

/-- The temperature of the receiver (MON-TEMP, version 0). -/
def temperature (p : List UInt8) : Reading :=
  if p.length ≠ 12 then some none
  else do
    let version ← unsigned? p 0 1
    if version ≠ 0 then return none
    let degrees ← signed? p 4 2
    let unit ← unsigned? p 6 1
    return some (toString degrees ++ " C, " ++ toString unit)

/-- A configuration write. Version 1 knows transactions. -/
def configWrite (p : List UInt8) : Reading :=
  if p.length < 4 then some none
  else do
    let bits ← p[1]?
    let size ← sub? p.length 4
    let text := "set " ++ toString size ++ " bytes, layers "
      ++ (Config.Layers.mk (bits &&& Config.Layers.all.bits)).toString
    let version : UInt8 ← p[0]?
    match version with
    | 0 => return some text
    | 1 =>
      let transaction ← p[2]?
      return some (text ++ ", transaction "
        ++ ((Config.Transaction.ofCode? transaction).map Config.Transaction.name).getD "?")
    | _ => return none

/-- The name of the layer that a request or an answer is about. -/
def layerName : UInt8 → String
  | 0 => "RAM"
  | 1 => "BBR"
  | 2 => "Flash"
  | 7 => "Default"
  | _ => "?"

/-- A request for configuration items (version 0) or an answer to one (version 1). -/
def configRead (p : List UInt8) : Reading :=
  if p.length < 4 then some none
  else do
    let layer ← p[1]?
    let position ← unsigned? p 2 2
    let place := ", layer " ++ layerName layer ++ ", position " ++ toString position
    let size ← sub? p.length 4
    let version : UInt8 ← p[0]?
    match version with
    | 0 => return some ("poll " ++ toString (size / 4) ++ " items" ++ place)
    | 1 => return some ("response " ++ toString size ++ " bytes" ++ place)
    | _ => return none

/-- An acknowledgement of the message named in its first two bytes. -/
def acknowledgement (word : String) (p : List UInt8) : Reading :=
  if p.length < 2 then some none
  else do
    let cls ← p[0]?
    let num ← p[1]?
    return some (word ++ " " ++ (MessageId.mk cls num).name)

end GnssLink.Report
