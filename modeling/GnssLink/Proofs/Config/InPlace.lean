import GnssLink.Proofs.Config.Refusal
/-!
# GnssLink.Proofs.Config.InPlace

**Items are written over a buffer as a whole or not at all** (`encodeInto_all_or_nothing`). The
length that is worked out first is the length that is written, so the items that pass the check find
room for each key and each value (`writeAll?_append`), and nothing behind them is touched.

To write items into a list of their own is to write them over a buffer of just their length
(`encode_eq_encodeInto`).
-/

namespace GnssLink.Config

/-- Writes items like `writeAll`, where every key and every value must find room. -/
def writeAll? : List Item → Nat → List UInt8 → Option (Nat × List UInt8)
  | [], offset, buffer => some (offset, buffer)
  | item :: rest, offset, buffer => do
    let keyed ← overwrite? buffer offset (LittleEndian.encode Item.keySize item.key.id.toNat)
    let valued ← overwrite? keyed (offset + Item.keySize) item.value.toBytes
    writeAll? rest (offset + Item.keySize + item.value.width.bytes) valued

/-- Writes a list of items like `encodeInto`, where every key and every value must find room. -/
def encodeInto? (items : List Item) (buffer : List UInt8) :
    Option (Except CodecError Nat × List UInt8) :=
  match encodedLength items with
  | .error e => some (.error e, buffer)
  | .ok required =>
    if buffer.length < required then some (.error (.overflow required buffer.length), buffer)
    else (writeAll? items 0 buffer).map fun (stop, written) => (.ok stop, written)

variable {items : List Item} {buffer : List UInt8}

/-! ### Writing item by item -/

/-- One item: the key goes where the part before it ends, and the value where the key ends. -/
theorem overwrite?_item (done : List UInt8) {item : Item} {rest : List UInt8}
    (h : Item.keySize + item.value.width.bytes ≤ rest.length) :
    ∃ keyed,
      overwrite? (done ++ rest) done.length (LittleEndian.encode Item.keySize item.key.id.toNat)
          = some keyed
        ∧ overwrite? keyed (done.length + Item.keySize) item.value.toBytes
          = some (done ++ item.toBytes ++ rest.drop (Item.keySize + item.value.width.bytes)) := by
  obtain ⟨key, hkey⟩ : ∃ key, key = LittleEndian.encode Item.keySize item.key.id.toNat := ⟨_, rfl⟩
  have hkeySize : key.length = Item.keySize := by rw [hkey, LittleEndian.length_encode]
  have hvalueSize := item.value.length_toBytes
  have hkeyFits : key.length ≤ rest.length := by omega
  have hvalueFits : item.value.toBytes.length ≤ (rest.drop key.length).length := by
    rw [List.length_drop]
    omega
  have hkeyed := overwrite?_append done key hkeyFits
  have hvalued := overwrite?_append (done ++ key) item.value.toBytes hvalueFits
  rw [List.length_append, hkeySize] at hvalued
  refine ⟨done ++ key ++ rest.drop key.length, hkey ▸ hkeyed, ?_⟩
  rw [hkeySize, hvalued, List.drop_drop, hvalueSize, Item.toBytes, ← hkey, List.append_assoc done]

/-- **All items.** They end up behind what was there, and nothing after them changes. -/
theorem writeAll?_append (items : List Item) (done : List UInt8) {rest : List UInt8}
    (h : wireSize items ≤ rest.length) :
    writeAll? items done.length (done ++ rest)
      = some (done.length + wireSize items,
        done ++ items.flatMap Item.toBytes ++ rest.drop (wireSize items)) := by
  induction items generalizing done rest with
  | nil => simp [writeAll?, wireSize]
  | cons item more ih =>
    rw [wireSize] at h
    have hitem : Item.keySize + item.value.width.bytes ≤ rest.length := by omega
    have hothers :
        wireSize more ≤ (rest.drop (Item.keySize + item.value.width.bytes)).length := by
      rw [List.length_drop]
      omega
    obtain ⟨keyed, hkeyed, hvalued⟩ := overwrite?_item done hitem
    have hmore := ih (done ++ item.toBytes) hothers
    rw [List.length_append, Item.length_toBytes, ← Nat.add_assoc, List.drop_drop] at hmore
    simp only [writeAll?, hkeyed, hvalued, hmore, Option.bind_eq_bind, Option.bind_some]
    rw [wireSize, List.flatMap_cons]
    simp [Nat.add_assoc]

/-- Where everything finds room, looking for room makes no difference. -/
theorem writeAll_of_writeAll? {offset : Nat} {after : Nat × List UInt8}
    (h : writeAll? items offset buffer = some after) : writeAll items offset buffer = after := by
  induction items generalizing offset buffer with
  | nil => exact Option.some.inj h
  | cons item more ih =>
    obtain ⟨keyed, hkeyed, hrest⟩ := Option.bind_eq_some_iff.mp h
    obtain ⟨valued, hvalued, hmore⟩ := Option.bind_eq_some_iff.mp hrest
    rw [writeAll, overwrite_of_overwrite? hkeyed, overwrite_of_overwrite? hvalued]
    exact ih hmore

/-! ### The whole list -/

theorem encodeInto_of_isFaulty {before after : List Item} {item : Item} {fault : KeyFault}
    (hsound : ∀ earlier ∈ before, earlier.IsSound) (hfaulty : item.IsFaulty fault) :
    encodeInto (before ++ item :: after) buffer = (.error (.malformed item.key fault), buffer) := by
  rw [encodeInto, encodedLength_of_isFaulty hsound hfaulty]

theorem encodeInto_of_lt (hsound : ∀ item ∈ items, item.IsSound)
    (hlong : buffer.length < wireSize items) :
    encodeInto items buffer = (.error (.overflow (wireSize items) buffer.length), buffer) := by
  rw [encodeInto, encodedLength_of_isSound hsound, length_flatMap_toBytes]
  exact if_pos hlong

theorem encodeInto_of_le (hsound : ∀ item ∈ items, item.IsSound)
    (hfits : wireSize items ≤ buffer.length) :
    encodeInto items buffer
      = (.ok (wireSize items), items.flatMap Item.toBytes ++ buffer.drop (wireSize items)) := by
  have hwritten := writeAll_of_writeAll? (writeAll?_append items [] hfits)
  rw [List.length_nil, List.nil_append, List.nil_append, Nat.zero_add] at hwritten
  rw [encodeInto, encodedLength_of_isSound hsound, length_flatMap_toBytes]
  dsimp only
  rw [if_neg (Nat.not_lt.mpr hfits), hwritten]

/-- No key and no value is written past the end of the buffer. -/
theorem encodeInto?_eq (items : List Item) (buffer : List UInt8) :
    encodeInto? items buffer = some (encodeInto items buffer) := by
  unfold encodeInto? encodeInto
  cases hlength : encodedLength items with
  | error e => rfl
  | ok required =>
    obtain ⟨-, hrequired⟩ := encodedLength_eq_ok hlength
    rw [length_flatMap_toBytes] at hrequired
    dsimp only
    by_cases hlong : buffer.length < required
    · rw [if_pos hlong, if_pos hlong]
    · have hfits : wireSize items ≤ buffer.length := by omega
      have hall := writeAll?_append items [] hfits
      rw [List.length_nil, List.nil_append] at hall
      rw [if_neg hlong, if_neg hlong, hall, writeAll_of_writeAll? hall]
      rfl

/-- A list of just the right length is filled. -/
theorem encode_eq_encodeInto (items : List Item) :
    encode items = (encodedLength items).bind fun n =>
      (encodeInto items (List.replicate n 0)).1.map fun _ =>
        (encodeInto items (List.replicate n 0)).2 := by
  rw [encode]
  cases hlength : encodedLength items with
  | error e => rfl
  | ok n =>
    obtain ⟨hsound, rfl⟩ := encodedLength_eq_ok hlength
    rw [length_flatMap_toBytes]
    have hfits : wireSize items ≤ (List.replicate (wireSize items) (0 : UInt8)).length := by simp
    simp [Except.bind, Except.map, encodeInto_of_le hsound hfits]

/-- **Items are written over a buffer as a whole or not at all.** The first key that does not
describe its value is looked for first, and then whether the buffer is long enough; either leaves
the buffer as it was. -/
theorem encodeInto_all_or_nothing (items : List Item) (buffer : List UInt8) :
    ((∃ item ∈ items, ¬item.IsSound) →
        ∃ before item after fault, items = before ++ item :: after
          ∧ (∀ earlier ∈ before, earlier.IsSound) ∧ item.IsFaulty fault
          ∧ encodeInto items buffer = (.error (.malformed item.key fault), buffer))
      ∧ ((∀ item ∈ items, item.IsSound) → ∃ required, encodedLength items = .ok required
        ∧ (buffer.length < required →
          encodeInto items buffer = (.error (.overflow required buffer.length), buffer))
        ∧ (required ≤ buffer.length → ∃ written, encodeInto items buffer = (.ok required, written)
          ∧ written.length = buffer.length ∧ encode items = .ok (written.take required)
          ∧ written.drop required = buffer.drop required))
      ∧ encodeInto? items buffer = some (encodeInto items buffer) := by
  refine ⟨?_, ?_, encodeInto?_eq items buffer⟩
  · intro hunsound
    obtain ⟨item, hmem, hitem⟩ := hunsound
    rcases isSound_or_exists_fault items with hsound | ⟨before, first, after, fault, rfl, hs, hf⟩
    · exact absurd (hsound item hmem) hitem
    · exact ⟨before, first, after, fault, rfl, hs, hf, encodeInto_of_isFaulty hs hf⟩
  · intro hsound
    have hlength := encodedLength_of_isSound hsound
    have hsize := length_flatMap_toBytes items
    rw [hsize] at hlength
    refine ⟨wireSize items, hlength, encodeInto_of_lt hsound, ?_⟩
    intro hfits
    refine ⟨_, encodeInto_of_le hsound hfits, ?_, ?_, ?_⟩
    · rw [List.length_append, List.length_drop, hsize]
      omega
    · rw [List.take_left' hsize]
      exact encode_eq_ok_iff.mpr ⟨hsound, rfl⟩
    · exact List.drop_left' hsize

/-- A rate that is four bytes wide, as its key says. -/
def baudRate : Item := ⟨⟨0x40520001⟩, .four 9600⟩

/-- The same key with a value of two bytes. -/
def narrowRate : Item := ⟨⟨0x40520001⟩, .two 9600⟩

theorem encodeInto_baudRate :
    (¬narrowRate.IsSound
        ∧ ∃ before item after fault, [baudRate, narrowRate] = before ++ item :: after
          ∧ (∀ earlier ∈ before, earlier.IsSound) ∧ item.IsFaulty fault
          ∧ encodeInto [baudRate, narrowRate] [0xaa] = (.error (.malformed item.key fault), [0xaa]))
      ∧ baudRate.IsSound ∧ encodedLength [baudRate] = .ok 8
      ∧ encodeInto [baudRate] (List.replicate 7 0xaa)
        = (.error (.overflow 8 7), List.replicate 7 0xaa)
      ∧ ∃ written, encodeInto [baudRate] (List.replicate 9 0xaa) = (.ok 8, written)
        ∧ written.length = 9 ∧ encode [baudRate] = .ok (written.take 8)
        ∧ written.drop 8 = [0xaa] := by
  have hnarrow : ¬narrowRate.IsSound := by
    show ¬narrowRate.key.width? = some narrowRate.value.width
    decide
  have hsound : baudRate.IsSound := rfl
  have hlength : encodedLength [baudRate] = .ok 8 := rfl
  refine ⟨⟨hnarrow, ?_⟩, hsound, hlength, ?_, ?_⟩
  · exact (encodeInto_all_or_nothing [baudRate, narrowRate] [0xaa]).1
      ⟨narrowRate, by simp, hnarrow⟩
  · obtain ⟨required, hrequired, hlong, -⟩ :=
      (encodeInto_all_or_nothing [baudRate] (List.replicate 7 0xaa)).2.1 (by simpa using hsound)
    cases hlength.symm.trans hrequired
    exact hlong (by decide)
  · obtain ⟨required, hrequired, -, hfits⟩ :=
      (encodeInto_all_or_nothing [baudRate] (List.replicate 9 0xaa)).2.1 (by simpa using hsound)
    cases hlength.symm.trans hrequired
    exact hfits (by decide)

end GnssLink.Config
