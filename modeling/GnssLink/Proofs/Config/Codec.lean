import GnssLink.Config.Item
/-!
# GnssLink.Proofs.Config.Codec

**Items are read back.** The key of an item says how wide its value is (`Item.IsSound`). A list of
such items can be written, and reading the bytes gives the list (`decode_flatMap_toBytes`), because
each item is read off the start of what is left, whatever follows it (`takeItem_toBytes`).
-/

namespace GnssLink.Config

theorem exists_of_map_eq_ok {ε α β : Type} {f : α → β} {result : Except ε α} {b : β}
    (h : result.map f = .ok b) : ∃ a, result = .ok a ∧ f a = b := by
  cases result with
  | error e => cases h
  | ok a =>
    cases h
    exact ⟨a, rfl, rfl⟩

theorem map_eq_error_iff {ε α β : Type} {f : α → β} {result : Except ε α} {e : ε} :
    result.map f = .error e ↔ result = .error e := by
  cases result with
  | error e' => simp [Except.map]
  | ok a => simp [Except.map]

theorem Value.lt_range (v : Value) : v.raw < LittleEndian.range v.width.bytes := by
  cases v with
  | bit b => cases b <;> decide
  | one n => exact n.toNat_lt
  | two n => exact n.toNat_lt
  | four n => exact n.toNat_lt
  | eight n => exact n.toNat_lt

/-- A value is found again from its number and its width. -/
theorem Value.ofRaw_raw (v : Value) : ofRaw v.raw v.width = v := by
  cases v with
  | bit b => cases b <;> rfl
  | one n => exact congrArg one (UInt8.ofNat_toNat)
  | two n => exact congrArg two (UInt16.ofNat_toNat)
  | four n => exact congrArg four (UInt32.ofNat_toNat)
  | eight n => exact congrArg eight (UInt64.ofNat_toNat)

theorem Value.ofBytes_toBytes (v : Value) : ofBytes v.toBytes v.width = v := by
  rw [ofBytes, toBytes, LittleEndian.decode_encode_of_lt v.lt_range, ofRaw_raw]

namespace Item

/-- Whether the key describes the value. -/
def IsSound (item : Item) : Prop := item.key.width? = some item.value.width

@[simp] theorem length_toBytes (item : Item) :
    item.toBytes.length = keySize + item.value.width.bytes := by
  simp [toBytes]

theorem encodedLength_eq_ok {item : Item} {n : Nat} (h : item.encodedLength = .ok n) :
    item.IsSound ∧ n = item.toBytes.length := by
  unfold encodedLength at h
  split at h
  · cases h
  · next w hwidth =>
    split at h
    · next hw =>
      cases h
      subst hw
      exact ⟨hwidth, (length_toBytes item).symm⟩
    · cases h

end Item

/-! ### Writing -/

/-- The bytes that some items take on the wire. -/
def wireSize : List Item → Nat
  | [] => 0
  | item :: rest => Item.keySize + item.value.width.bytes + wireSize rest

theorem length_flatMap_toBytes (items : List Item) :
    (items.flatMap Item.toBytes).length = wireSize items := by
  induction items with
  | nil => rfl
  | cons item rest ih =>
    rw [List.flatMap_cons, List.length_append, Item.length_toBytes, ih, wireSize]

/-- No item takes more than twelve bytes. -/
theorem wireSize_le (items : List Item) : wireSize items ≤ 12 * items.length := by
  induction items with
  | nil => exact Nat.le_refl _
  | cons item rest ih =>
    have hwidth : item.value.width.bytes ≤ 8 := by cases item.value.width <;> decide
    rw [wireSize, List.length_cons, Item.keySize]
    omega

theorem encodedLength_eq_ok {items : List Item} {n : Nat} (h : encodedLength items = .ok n) :
    (∀ item ∈ items, item.IsSound) ∧ n = (items.flatMap Item.toBytes).length := by
  induction items generalizing n with
  | nil =>
    cases h
    exact ⟨nofun, rfl⟩
  | cons item rest ih =>
    unfold encodedLength at h
    split at h
    · cases h
    · next k hitem =>
      obtain ⟨hsound, rfl⟩ := Item.encodedLength_eq_ok hitem
      obtain ⟨m, hrest, rfl⟩ := exists_of_map_eq_ok h
      obtain ⟨hall, rfl⟩ := ih hrest
      refine ⟨List.forall_mem_cons.mpr ⟨hsound, hall⟩, ?_⟩
      rw [List.flatMap_cons, List.length_append]

/-- What was written within some room is what the items come to, and it fits. -/
theorem encodeWithin_eq_ok {available : Nat} {items : List Item} {data : List UInt8}
    (h : encodeWithin available items = .ok data) :
    (∀ item ∈ items, item.IsSound) ∧ data = items.flatMap Item.toBytes
      ∧ data.length ≤ available := by
  unfold encodeWithin at h
  split at h
  · cases h
  · next n hlength =>
    obtain ⟨hsound, rfl⟩ := encodedLength_eq_ok hlength
    split at h
    · cases h
    · cases h
      exact ⟨hsound, rfl, by omega⟩

/-! ### Reading -/

/-- A value is read off the start as far as the key says. -/
theorem takeValue_append {key : Key} {w : Width} {bytes : List UInt8} (h : key.width? = some w)
    (hlength : bytes.length = w.bytes) (rest : List UInt8) :
    takeValue key (bytes ++ rest) = .ok (⟨key, .ofBytes bytes w⟩, rest) := by
  rw [takeValue, h]
  dsimp only
  rw [List.take_left' hlength, List.drop_left' hlength, if_pos hlength]

theorem takeValue_toBytes {key : Key} {v : Value} (rest : List UInt8)
    (h : key.width? = some v.width) :
    takeValue key (v.toBytes ++ rest) = .ok (⟨key, v⟩, rest) := by
  rw [takeValue_append h v.length_toBytes, v.ofBytes_toBytes]

/-- A key is read first, and then the value that belongs to it. -/
theorem takeItem_key (key : Key) (after : List UInt8) :
    takeItem (LittleEndian.encode Item.keySize key.id.toNat ++ after)
      = match takeValue key after with
        | .ok (item, rest) => some (.ok item, rest)
        | .error e => some (.error e, []) := by
  obtain ⟨id⟩ := key
  obtain ⟨k0, k1, k2, k3, hkey⟩ : ∃ k0 k1 k2 k3,
      LittleEndian.encode Item.keySize id.toNat = [k0, k1, k2, k3] := ⟨_, _, _, _, rfl⟩
  have hid : UInt32.ofNat (LittleEndian.decode [k0, k1, k2, k3]) = id := by
    rw [← hkey, LittleEndian.decode_encode_of_lt id.toNat_lt, UInt32.ofNat_toNat]
  have hread : takeItem ([k0, k1, k2, k3] ++ after)
      = match takeValue ⟨UInt32.ofNat (LittleEndian.decode [k0, k1, k2, k3])⟩ after with
        | .ok (item, rest) => some (.ok item, rest)
        | .error e => some (.error e, []) := rfl
  rw [hkey, hread, hid]

/-- An item is read off the start of whatever begins with it. -/
theorem takeItem_toBytes {item : Item} (rest : List UInt8) (h : item.IsSound) :
    takeItem (item.toBytes ++ rest) = some (.ok item, rest) := by
  rw [Item.toBytes, List.append_assoc, takeItem_key, takeValue_toBytes rest h]

theorem decode_nil : decode [] = .ok [] := by
  rw [decode]
  rfl

/-- Reading goes on behind an item. -/
theorem decode_of_takeItem {data rest : List UInt8} {item : Item}
    (h : takeItem data = some (.ok item, rest)) :
    decode data = (decode rest).map (item :: ·) := by
  rw [decode]
  split
  · next heq => rw [h] at heq; cases heq
  · next heq => rw [h] at heq; cases heq
  · next heq =>
    rw [h] at heq
    cases heq
    rfl

theorem decode_of_takeItem_error {data rest : List UInt8} {e : CodecError}
    (h : takeItem data = some (.error e, rest)) :
    decode data = .error e := by
  rw [decode]
  split
  · next heq => rw [h] at heq; cases heq
  · next heq =>
    rw [h] at heq
    cases heq
    rfl
  · next heq => rw [h] at heq; cases heq

/-- Items are read off the start of whatever begins with them. -/
theorem decode_flatMap_append {items : List Item} (h : ∀ item ∈ items, item.IsSound)
    (rest : List UInt8) :
    decode (items.flatMap Item.toBytes ++ rest) = (decode rest).map (items ++ ·) := by
  induction items with
  | nil =>
    rw [List.flatMap_nil, List.nil_append]
    cases decode rest <;> rfl
  | cons item more ih =>
    obtain ⟨hitem, hmore⟩ := List.forall_mem_cons.mp h
    rw [List.flatMap_cons, List.append_assoc, decode_of_takeItem (takeItem_toBytes _ hitem),
      ih hmore]
    cases decode rest <;> rfl

/-- **Items are read back.** -/
theorem decode_flatMap_toBytes {items : List Item} (h : ∀ item ∈ items, item.IsSound) :
    decode (items.flatMap Item.toBytes) = .ok items := by
  have hwhole := decode_flatMap_append h []
  rw [List.append_nil, decode_nil] at hwhole
  rw [hwhole, Except.map, List.append_nil]

end GnssLink.Config
