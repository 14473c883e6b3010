import GnssLink.Frame.Basic
import GnssLink.Config.Chunks
import GnssLink.Config.Item
import GnssLink.Config.Layers
/-!
# GnssLink.Config.Write

**Configuration writes.** One message carries at most 64 items. A longer write is a transaction of
several messages, marked in each (`Transaction`): the receiver collects the items and applies them
when the transaction is finished.

Design points:

* `WriteLimits.split` decides in a fixed order: too many messages, no layer, a list that cannot be
  encoded. Nothing is sent while messages are being built.
* Receivers ignore the items of a message that finishes a transaction, so by default the last
  message carries none (`WriteLimits.emptyFinish`).
* A write without items is a single message outside any transaction; it neither opens nor finishes
  one.
-/

namespace GnssLink.Config

/-- The place of a message in a transaction. -/
inductive Transaction where
  /-- The message is applied on its own. -/
  | none
  /-- The message opens a transaction. -/
  | start
  /-- The message belongs to the open transaction. -/
  | proceed
  /-- The message finishes the transaction. -/
  | finish
  deriving DecidableEq, Repr

namespace Transaction

/-- The mark in the message. -/
def code : Transaction → UInt8
  | none => 0
  | start => 1
  | proceed => 2
  | finish => 3

/-- The place that a mark stands for. -/
def ofCode? : UInt8 → Option Transaction
  | 0 => some none
  | 1 => some start
  | 2 => some proceed
  | 3 => some finish
  | _ => Option.none

/-- The place in words. -/
def name : Transaction → String
  | none => "none"
  | start => "begin"
  | proceed => "continue"
  | finish => "end"

theorem ofCode?_code (t : Transaction) : ofCode? t.code = some t := by
  cases t <;> rfl

end Transaction

/-- A message of a write, ready to be sent. -/
structure WriteMessage where
  /-- The complete frame. -/
  frame : List UInt8
  transaction : Transaction
  items : Nat
  /-- What it carries, in words. -/
  info : String
  deriving DecidableEq, Repr

/-- Why a write cannot be split into messages. -/
inductive WriteError where
  /-- The items need more messages than allowed. -/
  | tooManyItems (items messages limit : Nat)
  | noLayer
  /-- The items of a message cannot be encoded. -/
  | codec (error : CodecError)
  deriving DecidableEq, Repr

/-- The error in words. -/
def WriteError.message : WriteError → String
  | tooManyItems items messages limit =>
    "too many items: " ++ toString items ++ " key-value pairs need " ++ toString messages
      ++ " messages, at most " ++ toString limit ++ " allowed"
  | noLayer => "no configuration layer selected"
  | codec e => e.message

/-- The largest list of items in one message: 64 items of a 4-byte key and an 8-byte value. -/
def maxDataSize : Nat := 64 * (4 + 8)

namespace WriteMessage

/-- The frame for some items. The bits of the layers are sent as they are. -/
def frameFor (layers : Layers) (t : Transaction) (items : List Item) :
    Except WriteError (List UInt8) :=
  match encodeWithin maxDataSize items with
  | .error e => .error (.codec e)
  | .ok data =>
    .ok (Frame.encode ⟨.cfgValset, 0x01 :: layers.bits :: t.code :: 0x00 :: data⟩)

/-- The end of every message's description. -/
def place (layers : Layers) (t : Transaction) (frame : List UInt8) : String :=
  toString frame.length ++ " bytes, " ++ layers.toString ++ ", transaction " ++ t.name

/-- A message with items, of which `first` is the first one's number among `total`. -/
def withItems (layers : Layers) (t : Transaction) (first total : Nat) (items : List Item) :
    Except WriteError WriteMessage :=
  (frameFor layers t items).map fun frame =>
    { frame, transaction := t, items := items.length
      info := toString items.length ++ " items: " ++ toString first ++ ".."
        ++ toString (first + items.length - 1) ++ "/" ++ toString total ++ ", "
        ++ place layers t frame }

/-- A message without items, which may open or finish a transaction explicitly. -/
def headerOnly (layers : Layers) (t : Transaction) : Except WriteError WriteMessage :=
  if layers.isEmpty then .error .noLayer
  else (frameFor layers t []).map fun frame =>
    { frame, transaction := t, items := 0, info := "no items, " ++ place layers t frame }

end WriteMessage

/-- How a write may be split. -/
structure WriteLimits where
  /-- The most items in a message; zero counts as one. -/
  maxItems : Nat := 64
  maxMessages : Nat := 20
  /-- Whether a transaction is finished by a further message without items. -/
  emptyFinish : Bool := true
  deriving DecidableEq, Repr

namespace WriteLimits

/-- The most messages that may carry items. -/
def maxContentMessages (limits : WriteLimits) : Nat :=
  if limits.emptyFinish then limits.maxMessages - 1 else limits.maxMessages

/-- The place in the transaction of each of `n` messages with items. -/
def places (limits : WriteLimits) : Nat → List Transaction
  | 0 => []
  | 1 => [.none]
  | n + 2 =>
    .start :: List.replicate n .proceed ++ [if limits.emptyFinish then .proceed else .finish]

/-- The messages for runs of items, of which the first starts at number `first` among `total`. -/
def contentMessages (layers : Layers) (total : Nat) :
    Nat → List (List Item × Transaction) → Except WriteError (List WriteMessage)
  | _, [] => .ok []
  | first, (items, t) :: rest =>
    match WriteMessage.withItems layers t first total items with
    | .error e => .error e
    | .ok message =>
      (contentMessages layers total (first + items.length) rest).map (message :: ·)

/-- Splits a write into messages; the items keep their order. -/
def split (limits : WriteLimits) (items : List Item) (layers : Layers) :
    Except WriteError (List WriteMessage) :=
  let runs := chunksOf limits.maxItems items
  if limits.maxContentMessages < runs.length then
    .error (.tooManyItems items.length runs.length limits.maxContentMessages)
  else if layers.isEmpty then .error .noLayer
  else if items.isEmpty then (WriteMessage.headerOnly layers .none).map ([·])
  else
    match contentMessages layers items.length 1 (runs.zip (limits.places runs.length)) with
    | .error e => .error e
    | .ok messages =>
      if runs.length > 1 && limits.emptyFinish then
        (WriteMessage.headerOnly layers .finish).map fun last => messages ++ [last]
      else .ok messages

@[simp] theorem length_places (limits : WriteLimits) (n : Nat) :
    (limits.places n).length = n := by
  match n with
  | 0 => rfl
  | 1 => rfl
  | n + 2 => simp [places]

end WriteLimits
end GnssLink.Config
