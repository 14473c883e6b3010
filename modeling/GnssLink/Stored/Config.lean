import GnssLink.Config.Item
import GnssLink.Config.Write
import GnssLink.Stored.Layers
/-!
# GnssLink.Stored.Config

**Configuration as JSON documents**: items, layers to read from, and how writes are split.
-/

namespace GnssLink.Stored

open GnssLink.Json (Tree)
open GnssLink.Config (Item Key Layer Value Width WriteLimits)

/-- The names of the fields of `WriteLimits`. -/
def limitNames : List String := ["max_kv_per_msg", "max_msgs", "empty_transaction_end"]

/-- Reads how writes are split. -/
def limits? (t : Tree) : Option WriteLimits := do
  match ← fields? limitNames t with
  | [some maxItems, some maxMessages, some emptyFinish] =>
    return {
      maxItems := ← Form.size.read? maxItems
      maxMessages := ← Form.size.read? maxMessages
      emptyFinish := ← Form.bool.read? emptyFinish }
  | _ => none

/-- How writes are split. -/
def Form.limits : Form WriteLimits where
  write l := .ofFields (limitNames.zip
    [Form.size.write l.maxItems, Form.size.write l.maxMessages, Form.bool.write l.emptyFinish])
  read? := limits?

/-- The name of a layer to read from. -/
def layerName : Layer → String
  | .ram => "Ram"
  | .bbr => "Bbr"
  | .flash => "Flash"
  | .default => "Default"

/-- Layers to read from. -/
def Form.layer : Form Layer := .names layerName [.ram, .bbr, .flash, .default]

/-- The name of a width. -/
def widthName : Width → String
  | .bit => "Bit"
  | .one => "One"
  | .two => "Two"
  | .four => "Four"
  | .eight => "Eight"

/-- Reads the bits of a value of the given width. -/
def bits? (width : Width) (t : Tree) : Option Value :=
  match width with
  | .bit => (Form.bool.read? t).map .bit
  | w => ((Form.nat (LittleEndian.range w.bytes - 1)).read? t).map fun n => .ofRaw n w

/-- Reads a value. -/
def value? (t : Tree) : Option Value := do
  let (name, content) ← alternative? t
  let width ← [Width.bit, .one, .two, .four, .eight].find? fun w => widthName w = name
  bits? width (← content)

/-- Values. -/
def Form.value : Form Value where
  write v := .ofFields [(widthName v.width, match v with
    | .bit b => .bool b
    | v => .ofNat v.raw)]
  read? := value?

/-- Keys. -/
def Form.key : Form Key := Form.uint32.map Key.mk Key.id

/-- Reads an item. -/
def item? (t : Tree) : Option Item := do
  match ← fields? ["key", "value"] t with
  | [some key, some value] => return ⟨← Form.key.read? key, ← value? value⟩
  | _ => none

/-- Items. -/
def Form.item : Form Item where
  write i := .ofFields [("key", Form.key.write i.key), ("value", Form.value.write i.value)]
  read? := item?

end GnssLink.Stored
