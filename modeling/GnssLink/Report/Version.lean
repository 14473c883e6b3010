import GnssLink.Bytes.Access
import GnssLink.Config.Chunks
import GnssLink.Report.Units
import GnssLink.Text.Blank
import GnssLink.Text.Utf8
/-!
# GnssLink.Report.Version

**The receiver's version** (MON-VER), such as `HPG 1.13 (ZED-F9P)`. The payload is a software
version of 30 bytes, a hardware version of 10 and any number of extensions of 30 bytes, each text
ended by a NUL. The last `FWVER=` extension replaces the software version and the last `MOD=`
extension is added in brackets; everything else is passed over.
-/

namespace GnssLink.Report

/-- The text in a field, up to the first NUL and without white space at its ends. -/
def fieldText? (field : List UInt8) : Option (List Char) := do
  let text ← slice? field 0 ((field.findIdx? (· = 0)).getD field.length)
  return Text.trim (Text.Utf8.decodeLossy text)

namespace Version

/-- The length of the software version. -/
def softwareSize : Nat := 30

/-- The length of the two versions that every payload has. -/
def headSize : Nat := 40

/-- The length of an extension. -/
def extensionSize : Nat := 30

/-- What follows a label, if the text starts with it. -/
def labelled? (label : String) (text : List Char) : Option (List Char) :=
  label.toList.isPrefixOf? text

/-- The texts of the extensions. -/
def extensions? (p : List UInt8) : Option (List (List Char)) := do
  let rest ← slice? p headSize p.length
  (Config.chunksOf extensionSize rest).mapM fieldText?

/-- What the texts taken so far give of the version. -/
structure Found where
  /-- The version of the firmware. -/
  firmware : List Char
  /-- The name of the module, if one is given. -/
  module? : Option (List Char)
  deriving DecidableEq, Repr

namespace Found

/-- Takes the text of an extension. What it gives replaces what an earlier one gave. -/
def take (found : Found) (text : List Char) : Found :=
  match labelled? "FWVER=" text with
  | some firmware => { found with firmware }
  | none =>
    match labelled? "MOD=" text with
    | some name => { found with module? := some name }
    | none => found

/-- The version in words, `none` if there is none. -/
def render (found : Found) : Option String :=
  if found.firmware.isEmpty then none
  else
    match found.module? with
    | none => some (String.ofList found.firmware)
    | some name => some (String.ofList (found.firmware ++ " (".toList ++ name ++ ")".toList))

end Found

end Version

/-- The version of the receiver. A payload of another length is not known, and the version must not
be empty. -/
def version? (p : List UInt8) : Reading :=
  if p.length < Version.headSize then some none
  else do
    let rest ← sub? p.length Version.headSize
    if rest % Version.extensionSize ≠ 0 then return none
    let software ← fieldText? (← slice? p 0 Version.softwareSize)
    let extensions ← Version.extensions? p
    return (extensions.foldl Version.Found.take ⟨software, none⟩).render

/-- The version of the receiver, if the payload gives one. -/
def version (p : List UInt8) : Option String := (version? p).join

end GnssLink.Report
