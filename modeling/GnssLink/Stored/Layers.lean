import GnssLink.Config.Layers
import GnssLink.Stored.Form
import GnssLink.Text.Blank
import GnssLink.Text.Split
/-!
# GnssLink.Stored.Layers

**Sets of layers as text**: the names of the layers with bars between them, such as `RAM | FLASH`.
Bits without a name are written as a hexadecimal number, as which bits with a name may be read too.
A blank text is the empty set.
-/

namespace GnssLink.Stored

open GnssLink.Config (Layers)

/-- The layers by the names that they are stored with. -/
def layerNames : List (UInt8 × String) := [(1, "RAM"), (2, "BBR"), (4, "FLASH")]

/-- The bits that a word stands for. -/
def layerBits? (word : List Char) : Option UInt8 :=
  match "0x".toList.isPrefixOf? word with
  | some digits => (Text.Numeral.natural? 16 (UInt8.size - 1) digits).map UInt8.ofNat
  | none => (layerNames.find? fun entry => entry.2.toList = word).map Prod.fst

/-- The set that a text stands for. -/
def layersOfText? (text : List Char) : Option Layers :=
  if (Text.trim text).isEmpty then some ⟨0⟩
  else
    ((Text.Split.pieces '|' text).mapM fun word => layerBits? (Text.trim word)).map fun bits =>
      ⟨bits.foldl (· ||| ·) 0⟩

/-- The text of a set. -/
def layersText (layers : Layers) : String :=
  let names := (layerNames.filter fun entry => layers.contains entry.1).map Prod.snd
  let rest := layers.bits &&& ~~~ Layers.all.bits
  " | ".intercalate (names ++ if rest = 0 then [] else ["0x" ++ Text.Hex.lower 1 rest.toNat])

/-- Sets of layers. -/
def Form.layers : Form Layers where
  write l := .ofString (layersText l)
  read? t := t.string?.bind fun s => layersOfText? s.toList

end GnssLink.Stored
