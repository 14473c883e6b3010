import GnssLink.Proofs.Config.Canonical
/-!
# GnssLink.Proofs.Config.Unreadable

**Reading stops at the first place where no item can be read, and does not resume**
(`reading_stops_at_fault`). At every place the data ends, or an item is written there, or there is a
reason why none can be read (`Unreadable`); `takeItem` tells the three apart.

* `Reads` is what some data holds: items one after the other, and what ends them.
* `CutOff` is where a part of an encoding ends: between two items, in a key or in a value.
-/

namespace GnssLink.Config

/-- Why no item can be read at the start of some data. -/
inductive Unreadable : List UInt8 → CodecError → Prop where
  | cutKey {data : List UInt8} (begun : data ≠ []) (short : data.length < Item.keySize) :
      Unreadable data (.malformed ⟨0⟩ .truncatedKey)
  | reserved {key : Key} (undefined : key.width? = none) (after : List UInt8) :
      Unreadable (LittleEndian.encode Item.keySize key.id.toNat ++ after)
        (.malformed key .reservedWidth)
  | cutValue {key : Key} {w : Width} {after : List UInt8} (defined : key.width? = some w)
      (short : after.length < w.bytes) :
      Unreadable (LittleEndian.encode Item.keySize key.id.toNat ++ after)
        (.malformed key .truncatedValue)

/-- The bytes are those of the item, up to the normal form of a single bit. -/
def Item.IsWrittenAs (item : Item) (part : List UInt8) : Prop :=
  item.IsSound ∧ item.normalize part = item.toBytes

variable {data rest : List UInt8} {item : Item} {items : List Item} {e : CodecError}

/-! ### One value -/

theorem takeValue_of_undefined {key : Key} (h : key.width? = none) :
    takeValue key data = .error (.malformed key .reservedWidth) := by
  rw [takeValue, h]

theorem takeValue_of_short {key : Key} {w : Width} (h : key.width? = some w)
    (hshort : data.length < w.bytes) :
    takeValue key data = .error (.malformed key .truncatedValue) := by
  have hcut : (data.take w.bytes).length ≠ w.bytes := by
    rw [List.length_take]
    omega
  rw [takeValue, h]
  exact if_neg hcut

/-! ### One item -/

/-- Data that is long enough starts with a key. -/
theorem exists_key (h : Item.keySize ≤ data.length) :
    ∃ (key : Key) (after : List UInt8),
      data = LittleEndian.encode Item.keySize key.id.toNat ++ after := by
  obtain ⟨head, hhead⟩ : ∃ head, head = data.take Item.keySize := ⟨_, rfl⟩
  have hlength : head.length = Item.keySize := by
    rw [hhead, List.length_take]
    omega
  have hlt : LittleEndian.decode head < LittleEndian.range Item.keySize :=
    hlength ▸ LittleEndian.decode_lt head
  have hback := LittleEndian.encode_decode head
  rw [hlength] at hback
  refine ⟨⟨UInt32.ofNat (LittleEndian.decode head)⟩, data.drop Item.keySize, ?_⟩
  rw [UInt32.toNat_ofNat_of_lt' hlt, hback, hhead, List.take_append_drop]

/-- Only at the end of the data there is nothing to answer. -/
theorem takeItem_eq_none_iff : takeItem data = none ↔ data = [] := by
  constructor
  · intro h
    unfold takeItem at h
    split at h
    · rfl
    · split at h <;> cases h
    · cases h
  · intro h
    rw [h]
    rfl

theorem takeItem_of_short (hne : data ≠ []) (h : data.length < Item.keySize) :
    takeItem data = some (.error (.malformed ⟨0⟩ .truncatedKey), []) := by
  match data with
  | [] => exact absurd rfl hne
  | [_] => rfl
  | [_, _] => rfl
  | [_, _, _] => rfl
  | _ :: _ :: _ :: _ :: _ =>
    simp only [List.length_cons, Item.keySize] at h
    omega

theorem takeItem_of_unreadable (h : Unreadable data e) : takeItem data = some (.error e, []) := by
  cases h with
  | cutKey begun short => exact takeItem_of_short begun short
  | reserved undefined after => rw [takeItem_key, takeValue_of_undefined undefined]
  | cutValue defined short => rw [takeItem_key, takeValue_of_short defined short]

/-- A fault is answered for no other reasons. -/
theorem unreadable_of_takeItem (h : takeItem data = some (.error e, rest)) :
    Unreadable data e := by
  by_cases hne : data = []
  · rw [takeItem_eq_none_iff.mpr hne] at h
    cases h
  · by_cases hshort : data.length < Item.keySize
    · rw [takeItem_of_short hne hshort] at h
      cases h
      exact .cutKey hne hshort
    · obtain ⟨key, after, rfl⟩ := exists_key (Nat.not_lt.mp hshort)
      rw [takeItem_key] at h
      cases hwidth : key.width? with
      | none =>
        rw [takeValue_of_undefined hwidth] at h
        cases h
        exact .reserved hwidth after
      | some w =>
        by_cases hcut : after.length < w.bytes
        · rw [takeValue_of_short hwidth hcut] at h
          cases h
          exact .cutValue hwidth hcut
        · have hlength : (after.take w.bytes).length = w.bytes := by
            rw [List.length_take]
            omega
          rw [← List.take_append_drop w.bytes after, takeValue_append hwidth hlength] at h
          cases h

/-- A byte is read as the bit whose normal form it has. -/
theorem Value.ofBytes_of_bitByte {v : Value} {b : UInt8} (hbit : v.width = .bit)
    (h : [bitByte b] = v.toBytes) : ofBytes [b] v.width = v := by
  have hsame : (ofBytes [b] .bit).toBytes = v.toBytes := (toBytes_ofBytes_bit b).trans h
  have hwidth : (ofBytes [b] .bit).width = v.width := (width_ofRaw _ _).trans hbit.symm
  have hback := (ofBytes [b] .bit).ofBytes_toBytes
  rw [hsame, hwidth, v.ofBytes_toBytes] at hback
  rw [hbit, ← hback]

/-- The key and the value of an item are found in its bytes. -/
theorem Item.IsWrittenAs.exists_value {part : List UInt8} (h : item.IsWrittenAs part) :
    ∃ bytes, part = LittleEndian.encode keySize item.key.id.toNat ++ bytes
      ∧ bytes.length = item.value.width.bytes
      ∧ Value.ofBytes bytes item.value.width = item.value := by
  obtain ⟨-, hnormal⟩ := h
  have hlength : part.length = keySize + item.value.width.bytes := by
    rw [← length_normalize item part, hnormal, length_toBytes]
  rw [normalize, toBytes] at hnormal
  by_cases hbit : item.value.width = .bit
  · rw [if_pos hbit] at hnormal
    have hkeyLength : (part.take keySize).length
        = (LittleEndian.encode keySize item.key.id.toNat).length := by
      rw [List.length_take, LittleEndian.length_encode]
      omega
    have hvalueLength : (part.drop keySize).length = item.value.width.bytes := by
      rw [List.length_drop]
      omega
    obtain ⟨hkey, hvalue⟩ := List.append_inj hnormal hkeyLength
    obtain ⟨b, hb⟩ := List.length_eq_one_iff.mp (hvalueLength.trans (congrArg Width.bytes hbit))
    rw [hb] at hvalue
    refine ⟨part.drop keySize, ?_, hvalueLength, ?_⟩
    · rw [← hkey, List.take_append_drop]
    · rw [hb]
      exact Value.ofBytes_of_bitByte hbit hvalue
  · rw [if_neg hbit] at hnormal
    exact ⟨item.value.toBytes, hnormal, item.value.length_toBytes, item.value.ofBytes_toBytes⟩

/-- An item is read off its bytes, whichever byte stands for its bit. -/
theorem takeItem_of_isWrittenAs {part : List UInt8} (h : item.IsWrittenAs part)
    (rest : List UInt8) : takeItem (part ++ rest) = some (.ok item, rest) := by
  obtain ⟨bytes, rfl, hlength, hvalue⟩ := h.exists_value
  rw [List.append_assoc, takeItem_key, takeValue_append h.1 hlength rest, hvalue]

/-! ### The items of some data -/

/-- What some data holds: items one after the other, and what ends them, if that is not the end of
the data. -/
inductive Reads : List UInt8 → List Item → Option CodecError → Prop where
  | finished : Reads [] [] none
  | stopped {data : List UInt8} {e : CodecError} (fault : Unreadable data e) :
      Reads data [] (some e)
  | item {part rest : List UInt8} {item : Item} {items : List Item} {ending : Option CodecError}
      (written : item.IsWrittenAs part) (more : Reads rest items ending) :
      Reads (part ++ rest) (item :: items) ending

/-- The answer to a call for the next item, and the data that is left for the calls after it. -/
def nextItem (data : List UInt8) : Option (Except CodecError Item) × List UInt8 :=
  match takeItem data with
  | none => (none, data)
  | some (result, rest) => (some result, rest)

/-- The answers to the calls for the next item, counted from zero. -/
def answerAt : Nat → List UInt8 → Option (Except CodecError Item)
  | 0, data => (nextItem data).1
  | n + 1, data => answerAt n (nextItem data).2

theorem answerAt_nil (n : Nat) : answerAt n [] = none := by
  induction n with
  | zero => rfl
  | succ n ih => exact ih

/-- All data holds something. -/
theorem exists_reads (data : List UInt8) : ∃ items ending, Reads data items ending := by
  fun_induction decode data with
  | case1 data hend =>
    rw [takeItem_eq_none_iff.mp hend]
    exact ⟨[], none, .finished⟩
  | case2 data e rest hfault => exact ⟨[], some e, .stopped (unreadable_of_takeItem hfault)⟩
  | case3 data item rest hitem _ ih =>
    obtain ⟨items, ending, hmore⟩ := ih
    obtain ⟨hsound, part, rfl, hpart⟩ := takeItem_eq_ok hitem
    exact ⟨item :: items, ending, .item ⟨hsound, hpart⟩ hmore⟩

namespace Reads

variable {ending : Option CodecError}

/-- The calls answer the items, then the fault, and then nothing. -/
theorem answerAt_eq (h : Reads data items ending) (n : Nat) :
    answerAt n data = (items.map Except.ok ++ ending.toList.map Except.error)[n]? := by
  induction h generalizing n with
  | finished => rw [answerAt_nil]; rfl
  | stopped fault =>
    have hnext := takeItem_of_unreadable fault
    cases n with
    | zero => simp [answerAt, nextItem, hnext]
    | succ n => simp [answerAt, nextItem, hnext, answerAt_nil]
  | item written _ ih =>
    have hnext := takeItem_of_isWrittenAs written
    cases n with
    | zero => simp [answerAt, nextItem, hnext]
    | succ n => simp [answerAt, nextItem, hnext, ih]

theorem decode_eq (h : Reads data items ending) :
    decode data = ending.elim (.ok items) .error := by
  induction h with
  | finished => exact decode_nil
  | stopped fault => exact decode_of_takeItem_error (takeItem_of_unreadable fault)
  | @item part rest item items ending written more ih =>
    rw [decode_of_takeItem (takeItem_of_isWrittenAs written rest), ih]
    cases ending <;> rfl

end Reads

/-! ### Encodings that are cut off -/

/-- Where a part of an encoding ends, counted from its start, and what is read from it. -/
inductive CutOff : List Item → List UInt8 → Except CodecError (List Item) → Prop where
  | between (before after : List Item) :
      CutOff (before ++ after) (before.flatMap Item.toBytes) (.ok before)
  | inKey (before : List Item) {item : Item} (after : List Item) {part : List UInt8}
      (start : part <+: item.toBytes) (begun : part ≠ []) (short : part.length < Item.keySize) :
      CutOff (before ++ item :: after) (before.flatMap Item.toBytes ++ part)
        (.error (.malformed ⟨0⟩ .truncatedKey))
  | inValue (before : List Item) {item : Item} (after : List Item) {part : List UInt8}
      (start : part <+: item.toBytes) (keyed : Item.keySize ≤ part.length)
      (short : part.length < item.toBytes.length) :
      CutOff (before ++ item :: after) (before.flatMap Item.toBytes ++ part)
        (.error (.malformed item.key .truncatedValue))

theorem CutOff.cons {result : Except CodecError (List Item)} (first : Item)
    (h : CutOff items data result) :
    CutOff (first :: items) (first.toBytes ++ data) (result.map (first :: ·)) := by
  cases h with
  | between before after => exact .between (first :: before) after
  | inKey before after start begun short =>
    rw [← List.append_assoc]
    exact .inKey (first :: before) after start begun short
  | inValue before after start keyed short =>
    rw [← List.append_assoc]
    exact .inValue (first :: before) after start keyed short

/-- Every part of an encoding ends somewhere. -/
theorem exists_cutOff (h : data <+: items.flatMap Item.toBytes) :
    ∃ result, CutOff items data result := by
  -- an item that is there as a whole is passed over; the first that is not is where the part ends
  induction items generalizing data with
  | nil =>
    obtain rfl := List.prefix_nil.mp h
    exact ⟨_, .between [] []⟩
  | cons item more ih =>
    rw [List.flatMap_cons] at h
    by_cases hwhole : item.toBytes.length ≤ data.length
    · obtain ⟨left, rfl⟩ := List.prefix_of_prefix_length_le (List.prefix_append _ _) h hwhole
      obtain ⟨result, hleft⟩ := ih ((List.prefix_append_right_inj _).mp h)
      exact ⟨_, hleft.cons item⟩
    · have hstart : data <+: item.toBytes :=
        List.prefix_of_prefix_length_le h (List.prefix_append _ _) (by omega)
      by_cases hnil : data = []
      · rw [hnil]
        exact ⟨_, .between [] (item :: more)⟩
      · by_cases hshort : data.length < Item.keySize
        · exact ⟨_, .inKey [] more hstart hnil hshort⟩
        · exact ⟨_, .inValue [] more hstart (by omega) (by omega)⟩

theorem unreadable_of_inValue {part : List UInt8} (hsound : item.IsSound)
    (hstart : part <+: item.toBytes) (hkeyed : Item.keySize ≤ part.length)
    (hshort : part.length < item.toBytes.length) :
    Unreadable part (.malformed item.key .truncatedValue) := by
  have hkey : LittleEndian.encode Item.keySize item.key.id.toNat <+: part := by
    refine List.prefix_of_prefix_length_le (List.prefix_append _ item.value.toBytes) hstart ?_
    rwa [LittleEndian.length_encode]
  obtain ⟨after, rfl⟩ := hkey
  rw [List.length_append, LittleEndian.length_encode, Item.length_toBytes] at hshort
  exact .cutValue hsound (by omega)

/-- The place where an encoding is cut off decides what is read from it. -/
theorem CutOff.decode_eq {result : Except CodecError (List Item)}
    (hsound : ∀ item ∈ items, item.IsSound) (h : CutOff items data result) :
    decode data = result := by
  cases h with
  | between before after =>
    exact decode_flatMap_toBytes fun item hmem => hsound item (List.mem_append_left _ hmem)
  | inKey before after _ begun short =>
    have hfault := takeItem_of_unreadable (.cutKey begun short)
    rw [decode_flatMap_append fun item hmem => hsound item (List.mem_append_left _ hmem),
      decode_of_takeItem_error hfault]
    rfl
  | @inValue before item after part start keyed short =>
    have hitem : item.IsSound := hsound item (by simp)
    have hfault := takeItem_of_unreadable (unreadable_of_inValue hitem start keyed short)
    rw [decode_flatMap_append fun item hmem => hsound item (List.mem_append_left _ hmem),
      decode_of_takeItem_error hfault]
    rfl

/-- **Reading stops at the first place where no item can be read, and does not resume.** A part of
an encoding is read up to the item that is cut off, which is the fault that is answered. Of any data
the calls for the next item answer the items before the first fault, then the fault, if there is
one, and then nothing any more; reading all of it gives these items or that fault. -/
theorem reading_stops_at_fault :
    (∀ items bytes, encode items = .ok bytes → ∀ data, data <+: bytes →
        ∀ result, decode data = result ↔ CutOff items data result)
      ∧ (∀ data, ∃ items ending, Reads data items ending
        ∧ (∀ n, answerAt n data = (items.map Except.ok ++ ending.toList.map Except.error)[n]?)
        ∧ decode data = ending.elim (.ok items) .error)
      ∧ KeyFault.truncatedKey.message = "truncated key id"
      ∧ KeyFault.truncatedValue.message = "value truncated" := by
  refine ⟨?_, ?_, rfl, rfl⟩
  · intro items bytes hbytes data hdata result
    obtain ⟨hsound, rfl⟩ := encode_eq_ok_iff.mp hbytes
    constructor
    · intro hresult
      obtain ⟨cutOff, hcut⟩ := exists_cutOff hdata
      rwa [← hresult, hcut.decode_eq hsound]
    · exact CutOff.decode_eq hsound
  · intro data
    obtain ⟨items, ending, hreads⟩ := exists_reads data
    exact ⟨items, ending, hreads, hreads.answerAt_eq, hreads.decode_eq⟩

/-- Two measurements a second and the port switched on. -/
def rateAndPort : List Item := [⟨⟨0x30210001⟩, .two 500⟩, ⟨⟨0x10520005⟩, .bit true⟩]

/-- The items as they are written. -/
def rateAndPortBytes : List UInt8 :=
  [0x01, 0x00, 0x21, 0x30, 0xf4, 0x01, 0x05, 0x00, 0x52, 0x10, 0x01]

/-- Cut off behind the first item, in the key of the second, and before its value. -/
theorem reading_stops_rateAndPort :
    encode rateAndPort = .ok rateAndPortBytes
      ∧ rateAndPortBytes.take 6 <+: rateAndPortBytes
      ∧ decode (rateAndPortBytes.take 6) = .ok [⟨⟨0x30210001⟩, .two 500⟩]
      ∧ decode (rateAndPortBytes.take 8) = .error (.malformed ⟨0⟩ .truncatedKey)
      ∧ decode (rateAndPortBytes.take 10) = .error (.malformed ⟨0x10520005⟩ .truncatedValue) := by
  have hbytes : encode rateAndPort = .ok rateAndPortBytes := by decide
  have hread := reading_stops_at_fault.1 rateAndPort rateAndPortBytes hbytes
  refine ⟨hbytes, List.take_prefix 6 _, ?_, ?_, ?_⟩
  · rw [hread _ (List.take_prefix 6 _)]
    exact .between [⟨⟨0x30210001⟩, .two 500⟩] [⟨⟨0x10520005⟩, .bit true⟩]
  · rw [hread _ (List.take_prefix 8 _)]
    have hstart : [0x05, 0x00] <+: (⟨⟨0x10520005⟩, .bit true⟩ : Item).toBytes := by decide
    exact .inKey [⟨⟨0x30210001⟩, .two 500⟩] [] hstart (by decide) (by decide)
  · rw [hread _ (List.take_prefix 10 _)]
    have hstart : [0x05, 0x00, 0x52, 0x10] <+: (⟨⟨0x10520005⟩, .bit true⟩ : Item).toBytes := by
      decide
    exact .inValue [⟨⟨0x30210001⟩, .two 500⟩] [] hstart (by decide) (by decide)

end GnssLink.Config
