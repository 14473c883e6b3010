import GnssLink.Report.Describe
/-!
# GnssLink.Proofs.Report.WithinPayload

**No report reads past the end of its payload** (`Report.isSome_describe?`), whatever message and
payload it is given. Each report looks at the length of the payload before it reads: what it reads
then is there.
-/

namespace GnssLink

/-! ### Fields that are there -/

namespace LittleEndian

variable {bytes : List UInt8} {offset width : Nat}

/-- A field that ends within the payload is there. -/
theorem unsigned?_eq_some (h : offset + width ≤ bytes.length) :
    unsigned? bytes offset width = some (decode ((bytes.drop offset).take width)) := by
  have hlength : ((bytes.drop offset).take width).length = width := by
    rw [List.length_take, List.length_drop]
    omega
  exact if_pos hlength

theorem signed?_eq_some (h : offset + width ≤ bytes.length) :
    signed? bytes offset width
      = some (Int.bmod (Int.ofNat (decode ((bytes.drop offset).take width))) (range width)) := by
  rw [signed?, unsigned?_eq_some h]
  rfl

/-- A field of one byte is the byte. -/
theorem unsigned?_of_getElem? {b : UInt8} (h : bytes[offset]? = some b) :
    unsigned? bytes offset 1 = some b.toNat := by
  obtain ⟨hlt, rfl⟩ := List.getElem?_eq_some_iff.mp h
  rw [unsigned?_eq_some (by omega), List.drop_eq_getElem_cons hlt, List.take_succ_cons,
    List.take_zero, decode_cons, decode_nil]
  rfl

end LittleEndian

/-- If each element has a result, so has the list. -/
theorem isSome_mapM {α β : Type} {f : α → Option β} {l : List α} (h : ∀ a ∈ l, (f a).isSome) :
    (l.mapM f).isSome := by
  induction l with
  | nil => rfl
  | cons a rest ih =>
    obtain ⟨ha, hrest⟩ := List.forall_mem_cons.mp h
    obtain ⟨b, hb⟩ := Option.isSome_iff_exists.mp ha
    obtain ⟨bs, hbs⟩ := Option.isSome_iff_exists.mp (ih hrest)
    rw [List.mapM_cons, hb, hbs]
    rfl

/-- If the result of each element is known, so is that of the list. -/
theorem mapM_eq_map {α β : Type} {f : α → Option β} {g : α → β} {l : List α}
    (h : ∀ a ∈ l, f a = some (g a)) : l.mapM f = some (l.map g) := by
  induction l with
  | nil => rfl
  | cons a rest ih =>
    obtain ⟨ha, hrest⟩ := List.forall_mem_cons.mp h
    rw [List.mapM_cons, ha, ih hrest]
    rfl

namespace Report

open LittleEndian

variable {p : List UInt8} {offset width : Nat}

theorem weekTime?_eq_some (h : offset + 4 ≤ p.length) :
    weekTime? p offset
      = some (weekTime (scaled (decode ((p.drop offset).take 4) : Nat) 1e-3)) := by
  rw [weekTime?, unsigned?_eq_some h]
  rfl

theorem scaledUnsigned?_eq_some {unit : Float} (h : offset + width ≤ p.length) :
    scaledUnsigned? p offset width unit
      = some (scaled (decode ((p.drop offset).take width) : Nat) unit) := by
  rw [scaledUnsigned?, unsigned?_eq_some h]
  rfl

theorem scaledSigned?_eq_some {unit : Float} (h : offset + width ≤ p.length) :
    scaledSigned? p offset width unit
      = some (scaled (Int.bmod (Int.ofNat (decode ((p.drop offset).take width))) (range width))
        unit) := by
  rw [scaledSigned?, signed?_eq_some h]
  rfl

theorem exists_fineCoordinate? {fineOffset : Nat} (h : offset + 4 ≤ p.length)
    (hfine : fineOffset + 1 ≤ p.length) : ∃ x, fineCoordinate? p offset fineOffset = some x := by
  rw [fineCoordinate?, scaledSigned?_eq_some h, scaledSigned?_eq_some hfine]
  exact ⟨_, rfl⟩

/-! ### Reports of fixed size -/

/-- Each report of fixed size looks at the size first, which settles all its reads at once. -/
theorem isSome_fix (p : List UInt8) : (fix p).isSome := by
  unfold fix Fix.ofPayload?
  split
  · rfl
  · next hsize =>
    have hlength : p.length = 92 := Decidable.not_not.mp hsize
    simp (disch := omega) only [unsigned?_eq_some, signed?_eq_some, Option.bind_eq_bind,
      Option.bind_some]
    rfl

theorem isSome_timeOnly (offset : Nat) (p : List UInt8) : (timeOnly offset p).isSome := by
  unfold timeOnly
  split
  · rfl
  · simp (disch := omega) only [weekTime?_eq_some]
    rfl

theorem isSome_earthPosition (p : List UInt8) : (earthPosition p).isSome := by
  unfold earthPosition
  split
  · rfl
  · next hsize =>
    have hlength : p.length = 20 := Decidable.not_not.mp hsize
    simp (disch := omega) only [weekTime?_eq_some, scaledSigned?_eq_some, scaledUnsigned?_eq_some,
      Option.bind_eq_bind, Option.bind_some]
    rfl

theorem isSome_fineEarthPosition (p : List UInt8) : (fineEarthPosition p).isSome := by
  unfold fineEarthPosition
  split
  · rfl
  · next hsize =>
    have hlength : p.length = 28 := Decidable.not_not.mp hsize
    obtain ⟨x, hx⟩ : ∃ x, fineCoordinate? p 8 20 = some x :=
      exists_fineCoordinate? (by omega) (by omega)
    obtain ⟨y, hy⟩ : ∃ y, fineCoordinate? p 12 21 = some y :=
      exists_fineCoordinate? (by omega) (by omega)
    obtain ⟨z, hz⟩ : ∃ z, fineCoordinate? p 16 22 = some z :=
      exists_fineCoordinate? (by omega) (by omega)
    simp (disch := omega) only [unsigned?_eq_some, weekTime?_eq_some, scaledUnsigned?_eq_some, hx,
      hy, hz, Option.bind_eq_bind, Option.bind_some]
    -- version and flags decide only whether what was read is shown
    split
    · rfl
    · split
      · rfl
      · rfl

theorem isSome_baseline (p : List UInt8) : (baseline p).isSome := by
  unfold baseline
  split
  · rfl
  · next hsize =>
    have hlength : p.length = 64 := Decidable.not_not.mp hsize
    obtain ⟨north, hnorth⟩ : ∃ x, fineCoordinate? p 8 32 = some x :=
      exists_fineCoordinate? (by omega) (by omega)
    obtain ⟨east, heast⟩ : ∃ x, fineCoordinate? p 12 33 = some x :=
      exists_fineCoordinate? (by omega) (by omega)
    obtain ⟨down, hdown⟩ : ∃ x, fineCoordinate? p 16 34 = some x :=
      exists_fineCoordinate? (by omega) (by omega)
    obtain ⟨distance, hdistance⟩ : ∃ x, fineCoordinate? p 20 35 = some x :=
      exists_fineCoordinate? (by omega) (by omega)
    simp (disch := omega) only [unsigned?_eq_some, weekTime?_eq_some, scaledSigned?_eq_some,
      scaledUnsigned?_eq_some, hnorth, heast, hdown, hdistance, Option.bind_eq_bind,
      Option.bind_some]
    split <;> rfl

theorem isSome_status (p : List UInt8) : (status p).isSome := by
  unfold status
  split
  · rfl
  · next hsize =>
    have hlength : p.length = 16 := Decidable.not_not.mp hsize
    simp (disch := omega) only [weekTime?_eq_some, scaledUnsigned?_eq_some, Option.bind_eq_bind,
      Option.bind_some]
    rfl

theorem isSome_velocity (p : List UInt8) : (velocity p).isSome := by
  unfold velocity
  split
  · rfl
  · next hsize =>
    have hlength : p.length = 36 := Decidable.not_not.mp hsize
    simp (disch := omega) only [weekTime?_eq_some, scaledSigned?_eq_some, scaledUnsigned?_eq_some,
      Option.bind_eq_bind, Option.bind_some]
    rfl

theorem isSome_temperature (p : List UInt8) : (temperature p).isSome := by
  unfold temperature
  split
  · rfl
  · next hsize =>
    have hlength : p.length = 12 := Decidable.not_not.mp hsize
    simp (disch := omega) only [unsigned?_eq_some, signed?_eq_some, Option.bind_eq_bind,
      Option.bind_some]
    split <;> rfl

/-! ### Reports of variable size -/

/-- A report of variable size asks for its head. The rest is taken as far as it goes. -/
theorem isSome_configWrite (p : List UInt8) : (configWrite p).isSome := by
  unfold configWrite
  split
  · rfl
  · simp (disch := omega) only [List.getElem?_eq_getElem, sub?_eq_some, Option.bind_eq_bind,
      Option.bind_some]
    split <;> rfl

theorem isSome_configRead (p : List UInt8) : (configRead p).isSome := by
  unfold configRead
  split
  · rfl
  · simp (disch := omega) only [List.getElem?_eq_getElem, unsigned?_eq_some, sub?_eq_some,
      Option.bind_eq_bind, Option.bind_some]
    split <;> rfl

theorem isSome_acknowledgement (word : String) (p : List UInt8) :
    (acknowledgement word p).isSome := by
  unfold acknowledgement
  split
  · rfl
  · simp (disch := omega) only [List.getElem?_eq_getElem, Option.bind_eq_bind, Option.bind_some]
    rfl

/-- Blocks are complete. -/
theorem length_of_mem_blocks {size count : Nat} {bytes block : List UInt8}
    (h : block ∈ blocks size count bytes) : block.length = size := by
  induction count generalizing bytes with
  | zero => cases h
  | succ count ih =>
    unfold blocks at h
    split at h
    · next hlength =>
      rcases List.mem_cons.mp h with rfl | hrest
      · exact hlength
      · exact ih hrest
    · cases h

/-- Blocks that are complete have room for the numbers of a satellite. -/
theorem exists_satellites {size count : Nat} (bytes : List UInt8) (h : offset + 2 ≤ size) :
    ∃ ids, (blocks size count bytes).mapM (satelliteAt? offset) = some ids := by
  apply Option.isSome_iff_exists.mp
  apply isSome_mapM
  intro block hblock
  have hlength := length_of_mem_blocks hblock
  unfold satelliteAt?
  simp (disch := omega) only [List.getElem?_eq_getElem, Option.bind_eq_bind, Option.bind_some]
  rfl

theorem exists_signals {size count : Nat} (bytes : List UInt8) (h : offset + 3 ≤ size) :
    ∃ ids, (blocks size count bytes).mapM (signalAt? offset) = some ids := by
  apply Option.isSome_iff_exists.mp
  apply isSome_mapM
  intro block hblock
  have hlength := length_of_mem_blocks hblock
  unfold signalAt?
  simp (disch := omega) only [List.getElem?_eq_getElem, Option.bind_eq_bind, Option.bind_some]
  rfl

theorem isSome_signals (p : List UInt8) : (signals p).isSome := by
  unfold signals
  split
  · rfl
  · simp (disch := omega) only [unsigned?_eq_some, weekTime?_eq_some, Option.bind_eq_bind,
      Option.bind_some]
    obtain ⟨ids, hids⟩ := exists_signals (p.drop 8) (by decide : 0 + 3 ≤ 16)
    split
    · rfl
    · rw [hids]
      rfl

theorem isSome_satellites (p : List UInt8) : (satellites p).isSome := by
  unfold satellites
  split
  · rfl
  · simp (disch := omega) only [unsigned?_eq_some, weekTime?_eq_some, Option.bind_eq_bind,
      Option.bind_some]
    obtain ⟨ids, hids⟩ := exists_satellites (p.drop 8) (by decide : 0 + 2 ≤ 12)
    split
    · rfl
    · rw [hids]
      rfl

theorem isSome_measurements (p : List UInt8) : (measurements p).isSome := by
  unfold measurements
  split
  · rfl
  · simp (disch := omega) only [unsigned?_eq_some, Option.bind_eq_bind, Option.bind_some]
    obtain ⟨ids, hids⟩ := exists_signals (p.drop 16) (by decide : 20 + 3 ≤ 32)
    split
    · rfl
    · split
      · rfl
      · rw [hids]
        rfl

/-! ### The version -/

/-- The text in a field ends with the field at the latest. -/
theorem isSome_fieldText? (field : List UInt8) : (fieldText? field).isSome := by
  have hend : (field.findIdx? (· = 0)).getD field.length ≤ field.length := by
    cases hfind : field.findIdx? (· = 0) with
    | none => exact Nat.le_refl _
    | some n =>
      obtain ⟨hlt, -⟩ := List.findIdx?_eq_some_iff_getElem.mp hfind
      exact Nat.le_of_lt hlt
  unfold fieldText?
  rw [slice?_zero hend]
  rfl

/-- The software version and the extensions stand within a payload that is long enough. -/
theorem isSome_version? (p : List UInt8) : (version? p).isSome := by
  unfold version? Version.extensions?
  split
  · rfl
  · next hsize =>
    have hhead : Version.headSize ≤ p.length := Nat.le_of_not_lt hsize
    have hsoftware : Version.softwareSize ≤ p.length := Nat.le_trans (by decide) hhead
    rw [sub?_eq_some hhead, slice?_zero hsoftware, slice?_length hhead]
    obtain ⟨software, htext⟩ :=
      Option.isSome_iff_exists.mp (isSome_fieldText? (p.take Version.softwareSize))
    obtain ⟨extensions, hextensions⟩ := Option.isSome_iff_exists.mp
      (isSome_mapM (l := Config.chunksOf Version.extensionSize (p.drop Version.headSize))
        fun field _ => isSome_fieldText? field)
    simp only [Option.bind_eq_bind, Option.bind_some, htext, hextensions]
    split <;> rfl

/-! ### All reports -/

theorem isSome_of_known : ∀ entry ∈ known, ∀ p, (entry.2 p).isSome := by
  simp only [known, List.forall_mem_cons, isSome_fix, isSome_earthPosition,
    isSome_fineEarthPosition, isSome_baseline, isSome_status, isSome_velocity, isSome_signals,
    isSome_satellites, isSome_timeOnly, isSome_measurements, isSome_version?,
    isSome_temperature, isSome_configWrite, isSome_configRead, isSome_acknowledgement,
    implies_true, true_and]
  exact nofun

/-- **No report reads past the end of its payload.** -/
theorem isSome_describe? (id : MessageId) (payload : List UInt8) :
    (describe? id payload).isSome := by
  unfold describe?
  split
  · rfl
  · split
    · rfl
    · split
      · next hfind => exact isSome_of_known _ (List.mem_of_find?_eq_some hfind) payload
      · rfl

end Report
end GnssLink
