import GnssLink.Bytes.Overwrite
import GnssLink.Config.Value
/-!
# GnssLink.Config.Item

**Configuration items and their encoding.** An item on the wire is its key (4 bytes) followed by
its value; a list of items is their concatenation.

* `encodeWithin` writes a list if every key describes its value and the bytes fit.
* `encodeInto` writes into a buffer, all of the list or nothing.
* `takeItem` reads the first item, `decode` all of them.
-/

namespace GnssLink.Config

/-- A key with its value. -/
structure Item where
  key : Key
  value : Value
  deriving DecidableEq, Repr

/-- What is wrong with a key. -/
inductive KeyFault where
  /-- The key has no defined width. -/
  | reservedWidth
  /-- The value is not as wide as the key says. -/
  | widthMismatch
  | truncatedKey
  | truncatedValue
  deriving DecidableEq, Repr

/-- The fault in words. -/
def KeyFault.message : KeyFault → String
  | reservedWidth => "reserved size class"
  | widthMismatch => "value width does not match key size class"
  | truncatedKey => "truncated key id"
  | truncatedValue => "value truncated"

/-- Why items cannot be written or read. -/
inductive CodecError where
  /-- The encoding is longer than the place for it. -/
  | overflow (required available : Nat)
  /-- A key is at fault; `key` is zero if the key itself is cut. -/
  | malformed (key : Key) (fault : KeyFault)
  deriving DecidableEq, Repr

/-- The error in words. -/
def CodecError.message : CodecError → String
  | overflow required available =>
    "encoding needs " ++ toString required ++ " bytes but only " ++ toString available
      ++ " are available"
  | malformed key fault => "malformed key " ++ key.toString ++ ": " ++ fault.message

namespace Item

/-- The bytes of a key. -/
def keySize : Nat := 4

/-- The item on the wire. -/
def toBytes (item : Item) : List UInt8 :=
  LittleEndian.encode keySize item.key.id.toNat ++ item.value.toBytes

/-- The length of the item on the wire, if its key describes its value. -/
def encodedLength (item : Item) : Except CodecError Nat :=
  match item.key.width? with
  | none => .error (.malformed item.key .reservedWidth)
  | some w =>
    if w = item.value.width then .ok (keySize + w.bytes)
    else .error (.malformed item.key .widthMismatch)

end Item

/-! ### Writing -/

/-- The length of a list of items on the wire; of several faults the first one counts. -/
def encodedLength : List Item → Except CodecError Nat
  | [] => .ok 0
  | item :: rest =>
    match item.encodedLength with
    | .error e => .error e
    | .ok n => (encodedLength rest).map (n + ·)

/-- Writes a list of items into at most `available` bytes. -/
def encodeWithin (available : Nat) (items : List Item) : Except CodecError (List UInt8) :=
  match encodedLength items with
  | .error e => .error e
  | .ok required =>
    if available < required then .error (.overflow required available)
    else .ok (items.flatMap Item.toBytes)

/-- Writes a list of items. -/
def encode (items : List Item) : Except CodecError (List UInt8) :=
  (encodedLength items).map fun _ => items.flatMap Item.toBytes

/-- Writes items over a buffer from `offset` on, the key and the value of each after those of the
one before, and answers where the last value ends. -/
def writeAll : List Item → Nat → List UInt8 → Nat × List UInt8
  | [], offset, buffer => (offset, buffer)
  | item :: rest, offset, buffer =>
    let keyed := overwrite buffer offset (LittleEndian.encode Item.keySize item.key.id.toNat)
    let valued := overwrite keyed (offset + Item.keySize) item.value.toBytes
    writeAll rest (offset + Item.keySize + item.value.width.bytes) valued

/-- Writes a list of items over the start of a buffer and answers how many bytes it took. The length
is worked out first, so a failure leaves the buffer as it was. -/
def encodeInto (items : List Item) (buffer : List UInt8) :
    Except CodecError Nat × List UInt8 :=
  match encodedLength items with
  | .error e => (.error e, buffer)
  | .ok required =>
    if buffer.length < required then (.error (.overflow required buffer.length), buffer)
    else
      let (stop, written) := writeAll items 0 buffer
      (.ok stop, written)

/-! ### Reading -/

/-- Reads the value that belongs to a key and answers the item and what follows it. -/
def takeValue (key : Key) (data : List UInt8) : Except CodecError (Item × List UInt8) :=
  match key.width? with
  | none => .error (.malformed key .reservedWidth)
  | some w =>
    if (data.take w.bytes).length = w.bytes then
      .ok (⟨key, .ofBytes (data.take w.bytes) w⟩, data.drop w.bytes)
    else .error (.malformed key .truncatedValue)

/-- Reads the first item and answers what follows it, or `none` at the end of the data. Nothing
follows a fault. -/
def takeItem (data : List UInt8) : Option (Except CodecError Item × List UInt8) :=
  match data with
  | [] => none
  | k0 :: k1 :: k2 :: k3 :: rest =>
    match takeValue ⟨UInt32.ofNat (LittleEndian.decode [k0, k1, k2, k3])⟩ rest with
    | .ok (item, rest) => some (.ok item, rest)
    | .error e => some (.error e, [])
  | _ => some (.error (.malformed ⟨0⟩ .truncatedKey), [])

theorem length_le_of_takeValue {key : Key} {item : Item} {data rest : List UInt8}
    (h : takeValue key data = .ok (item, rest)) : rest.length ≤ data.length := by
  unfold takeValue at h
  split at h
  · cases h
  · split at h
    · cases h; simp
    · cases h

/-- Every item takes bytes from the data. -/
theorem length_lt_of_takeItem {data rest : List UInt8} {r : Except CodecError Item}
    (h : takeItem data = some (r, rest)) : rest.length < data.length := by
  unfold takeItem at h
  split at h
  · cases h
  · split at h
    · next hv =>
      cases h
      have := length_le_of_takeValue hv
      simp only [List.length_cons]
      omega
    · cases h; simp
  · next hne _ =>
    cases h
    cases data with
    | nil => exact absurd rfl hne
    | cons b l => simp

/-- Reads all items, or answers the first fault. -/
def decode (data : List UInt8) : Except CodecError (List Item) :=
  match h : takeItem data with
  | none => .ok []
  | some (.error e, _) => .error e
  | some (.ok item, rest) =>
    have : rest.length < data.length := length_lt_of_takeItem h
    (decode rest).map (item :: ·)
termination_by data.length

end GnssLink.Config
