import Mathlib.Data.List.Forall2
import GnssLink.Proofs.Config.Codec
/-!
# GnssLink.Proofs.Config.Canonical

**Writing and reading items undo each other** (`encode_decode_inverse`). A list can be written
exactly when each key describes its value (`encode_eq_ok_iff`), and then it is read back. What is
read was written by some list, except that a set bit may be any byte but zero on the wire and is
written as 1 (`Item.normalize`).

The converse is shown for one item at the start of the data (`takeItem_eq_ok`), where its key says
how many bytes belong to it, and then for all of them (`decode_eq_ok`).
-/

namespace GnssLink.Config

/-! ### One item -/

namespace Value

theorem raw_ofRaw {n : Nat} {w : Width} (hw : w ≠ .bit) (hn : n < LittleEndian.range w.bytes) :
    (ofRaw n w).raw = n := by
  cases w with
  | bit => exact absurd rfl hw
  | one => exact UInt8.toNat_ofNat_of_lt' hn
  | two => exact UInt16.toNat_ofNat_of_lt' hn
  | four => exact UInt32.toNat_ofNat_of_lt' hn
  | eight => exact UInt64.toNat_ofNat_of_lt' hn

/-- The bits of a value are found as they are written. -/
theorem toBytes_ofBytes {bytes : List UInt8} {w : Width} (hw : w ≠ .bit)
    (hlength : bytes.length = w.bytes) : (ofBytes bytes w).toBytes = bytes := by
  have hlt : LittleEndian.decode bytes < LittleEndian.range w.bytes :=
    hlength ▸ LittleEndian.decode_lt bytes
  rw [toBytes, ofBytes, width_ofRaw, raw_ofRaw hw hlt, ← hlength, LittleEndian.encode_decode]

/-- The value byte of a single bit as it is written. -/
def bitByte (b : UInt8) : UInt8 := if b = 0 then 0 else 1

/-- A byte that is read as a bit is written as 0 or 1. -/
theorem toBytes_ofBytes_bit (b : UInt8) : (ofBytes [b] .bit).toBytes = [bitByte b] := by
  have hraw : LittleEndian.decode [b] = b.toNat := by simp
  have hzero : b.toNat = 0 ↔ b = 0 := UInt8.toNat_inj (b := 0)
  rw [ofBytes, hraw, bitByte]
  by_cases hb : b = 0
  · rw [if_pos hb, hb]
    rfl
  · rw [if_neg hb, ofRaw, bne_iff_ne.mpr (mt hzero.mp hb)]
    rfl

end Value

namespace Item

/-- The bytes of an item with its value as it is written: that of a single bit becomes 0 or 1, and
any other stays as it is. -/
def normalize (item : Item) (part : List UInt8) : List UInt8 :=
  if item.value.width = .bit then
    part.take keySize ++ (part.drop keySize).map Value.bitByte
  else part

@[simp] theorem length_normalize (item : Item) (part : List UInt8) :
    (item.normalize part).length = part.length := by
  unfold normalize
  split
  · rw [List.length_append, List.length_map, ← List.length_append, List.take_append_drop]
  · rfl

theorem encodedLength_of_isSound {item : Item} (h : item.IsSound) :
    item.encodedLength = .ok item.toBytes.length := by
  rw [encodedLength, h, length_toBytes]
  exact if_pos rfl

end Item

/-- A value that is read stands at the start of the data, in as many bytes as its key says. -/
theorem takeValue_eq_ok {key : Key} {item : Item} {data rest : List UInt8}
    (h : takeValue key data = .ok (item, rest)) :
    item.key = key ∧ item.IsSound ∧ ∃ part, data = part ++ rest
      ∧ part.length = item.value.width.bytes ∧ item.value = .ofBytes part item.value.width := by
  unfold takeValue at h
  cases hwidth : key.width? with
  | none =>
    rw [hwidth] at h
    cases h
  | some w =>
    rw [hwidth] at h
    dsimp only at h
    by_cases hlength : (data.take w.bytes).length = w.bytes
    · rw [if_pos hlength] at h
      cases h
      have hw : (Value.ofBytes (data.take w.bytes) w).width = w := Value.width_ofRaw _ w
      refine ⟨rfl, ?_, data.take w.bytes, ?_, ?_, ?_⟩
      · show key.width? = some (Value.ofBytes (data.take w.bytes) w).width
        rw [hw, hwidth]
      · exact (List.take_append_drop w.bytes data).symm
      · rw [hw, hlength]
      · rw [hw]
    · rw [if_neg hlength] at h
      cases h

/-- An item that is read is written as the bytes that it was read from, up to normal form. -/
theorem takeItem_eq_ok {item : Item} {data rest : List UInt8}
    (h : takeItem data = some (.ok item, rest)) :
    item.IsSound ∧ ∃ part, data = part ++ rest ∧ item.normalize part = item.toBytes := by
  unfold takeItem at h
  split at h
  · cases h
  · next k0 k1 k2 k3 after =>
    cases hvalue : takeValue ⟨UInt32.ofNat (LittleEndian.decode [k0, k1, k2, k3])⟩ after with
    | error e =>
      rw [hvalue] at h
      cases h
    | ok found =>
      obtain ⟨first, left⟩ := found
      rw [hvalue] at h
      obtain ⟨rfl, rfl⟩ : first = item ∧ left = rest := by simpa using h
      obtain ⟨hkey, hsound, part, rfl, hlength, hpart⟩ := takeValue_eq_ok hvalue
      have hkeyBytes : LittleEndian.encode Item.keySize first.key.id.toNat = [k0, k1, k2, k3] := by
        have hlt : LittleEndian.decode [k0, k1, k2, k3] < UInt32.size :=
          LittleEndian.decode_lt [k0, k1, k2, k3]
        rw [hkey, UInt32.toNat_ofNat_of_lt' hlt]
        exact LittleEndian.encode_decode [k0, k1, k2, k3]
      refine ⟨hsound, k0 :: k1 :: k2 :: k3 :: part, rfl, ?_⟩
      rw [Item.toBytes, hkeyBytes, hpart]
      by_cases hbit : first.value.width = .bit
      · rw [hbit] at hlength ⊢
        obtain ⟨b, rfl⟩ := List.length_eq_one_iff.mp hlength
        rw [Item.normalize, if_pos hbit, Value.toBytes_ofBytes_bit]
        rfl
      · rw [Item.normalize, if_neg hbit, Value.toBytes_ofBytes hbit hlength]
        rfl
  · cases h

/-! ### Lists of items -/

theorem encodedLength_of_isSound {items : List Item} (h : ∀ item ∈ items, item.IsSound) :
    encodedLength items = .ok (items.flatMap Item.toBytes).length := by
  induction items with
  | nil => rfl
  | cons item rest ih =>
    obtain ⟨hitem, hrest⟩ := List.forall_mem_cons.mp h
    rw [encodedLength, Item.encodedLength_of_isSound hitem, ih hrest, List.flatMap_cons,
      List.length_append]
    rfl

/-- Exactly the items whose keys describe their values can be written. -/
theorem encode_eq_ok_iff {items : List Item} {data : List UInt8} :
    encode items = .ok data
      ↔ (∀ item ∈ items, item.IsSound) ∧ data = items.flatMap Item.toBytes := by
  constructor
  · intro h
    obtain ⟨n, hlength, rfl⟩ := exists_of_map_eq_ok h
    exact ⟨(encodedLength_eq_ok hlength).1, rfl⟩
  · rintro ⟨hsound, rfl⟩
    rw [encode, encodedLength_of_isSound hsound]
    rfl

theorem encodedLength_append (items more : List Item) :
    encodedLength (items ++ more)
      = (encodedLength items).bind fun n => (encodedLength more).map (n + ·) := by
  induction items with
  | nil =>
    rw [List.nil_append, encodedLength]
    cases encodedLength more with
    | error e => rfl
    | ok m => simp [Except.bind, Except.map]
  | cons item rest ih =>
    rw [List.cons_append, encodedLength, encodedLength, ih]
    cases item.encodedLength with
    | error e => rfl
    | ok k =>
      cases encodedLength rest with
      | error e => rfl
      | ok n => cases encodedLength more <;> simp [Except.bind, Except.map, Nat.add_assoc]

/-- Two lists are written one after the other; a fault of the first one comes first. -/
theorem encode_append (items more : List Item) :
    encode (items ++ more)
      = (encode items).bind fun bytes => (encode more).map (bytes ++ ·) := by
  rw [encode, encode, encode, encodedLength_append, List.flatMap_append]
  cases encodedLength items with
  | error e => rfl
  | ok n => cases encodedLength more <;> rfl

/-- What is read was written, up to normal form. -/
theorem decode_eq_ok {data : List UInt8} {items : List Item} (h : decode data = .ok items) :
    (∀ item ∈ items, item.IsSound) ∧ ∃ parts, data = parts.flatten
      ∧ List.Forall₂ (fun item part => item.normalize part = item.toBytes) items parts := by
  fun_induction decode data generalizing items with
  | case1 data hend =>
    cases h
    refine ⟨nofun, [], ?_, .nil⟩
    cases data with
    | nil => rfl
    | cons b rest =>
      -- only the end of the data gives no item
      unfold takeItem at hend
      split at hend
      · next hnil => cases hnil
      · split at hend <;> cases hend
      · cases hend
  | case2 data e _ hfault => cases h
  | case3 data rest item hitem _ ih =>
    obtain ⟨more, hrest, rfl⟩ := exists_of_map_eq_ok h
    obtain ⟨hsound, part, rfl, hpart⟩ := takeItem_eq_ok hitem
    obtain ⟨hall, parts, rfl, hparts⟩ := ih hrest
    exact ⟨List.forall_mem_cons.mpr ⟨hsound, hall⟩, part :: parts, rfl, .cons hpart hparts⟩

theorem length_flatten_of_normalize {items : List Item} {parts : List (List UInt8)}
    (h : List.Forall₂ (fun item part => item.normalize part = item.toBytes) items parts) :
    (items.flatMap Item.toBytes).length = parts.flatten.length := by
  induction h with
  | nil => rfl
  | cons hpart _ ih =>
    rw [List.flatMap_cons, List.flatten_cons, List.length_append, List.length_append, ih, ← hpart,
      Item.length_normalize]

/-- **Writing and reading undo each other**, up to the normal form of single bits. -/
theorem encode_decode_inverse (items more : List Item) (data : List UInt8) :
    ((∃ bytes, encode items = .ok bytes) ↔ ∀ item ∈ items, item.IsSound)
      ∧ (encode items = .ok data → decode data = .ok items)
      ∧ (decode data = .ok items → ∃ bytes parts, encode items = .ok bytes
          ∧ bytes.length = data.length
          ∧ data = parts.flatten ∧ bytes = items.flatMap Item.toBytes
          ∧ List.Forall₂ (fun item part => item.normalize part = item.toBytes) items parts)
      ∧ (encode items = .ok data → encode more = .ok data → items = more)
      ∧ encode (items ++ more)
        = (encode items).bind fun bytes => (encode more).map (bytes ++ ·) := by
  have hback {items : List Item} (h : encode items = .ok data) : decode data = .ok items := by
    obtain ⟨hsound, rfl⟩ := encode_eq_ok_iff.mp h
    exact decode_flatMap_toBytes hsound
  refine ⟨?_, hback, ?_, ?_, encode_append items more⟩
  · constructor
    · rintro ⟨bytes, hbytes⟩
      exact (encode_eq_ok_iff.mp hbytes).1
    · intro hsound
      exact ⟨_, encode_eq_ok_iff.mpr ⟨hsound, rfl⟩⟩
  · intro h
    obtain ⟨hsound, parts, rfl, hparts⟩ := decode_eq_ok h
    exact ⟨_, parts, encode_eq_ok_iff.mpr ⟨hsound, rfl⟩, length_flatten_of_normalize hparts, rfl,
      rfl, hparts⟩
  · intro hitems hmore
    have hsame := (hback hitems).symm.trans (hback hmore)
    exact Except.ok.inj hsame

/-- A single bit that was sent as 7. -/
example : (⟨⟨0x10520005⟩, .bit true⟩ : Item).normalize [0x05, 0x00, 0x52, 0x10, 0x07]
    = [0x05, 0x00, 0x52, 0x10, 0x01] := by decide

end GnssLink.Config
