import GnssLink.Config.Write
import GnssLink.Proofs.Config.Canonical
/-!
# GnssLink.Proofs.Config.Refusal

**Which writes are refused, and why** (`WriteLimits.split_decided`). Four things are looked at in a
fixed order: the number of messages, the layers, and then, message by message, whether each key
describes its value and whether the items fit.

What makes a list of items unfit for one message (`Unwritable`) and a list for a whole write
(`WriteLimits.Refuses`) is said without encoding anything: by keys, widths and places in the list.
-/

namespace GnssLink.Config

/-! ### One message -/

/-- What is wrong with an item whose key does not describe its value. -/
inductive Item.IsFaulty (item : Item) : KeyFault → Prop where
  | reserved (undefined : item.key.width? = none) : item.IsFaulty .reservedWidth
  | mismatch {w : Width} (defined : item.key.width? = some w) (other : w ≠ item.value.width) :
      item.IsFaulty .widthMismatch

namespace Item

variable {item : Item} {fault : KeyFault}

theorem IsFaulty.encodedLength (h : item.IsFaulty fault) :
    item.encodedLength = .error (.malformed item.key fault) := by
  unfold Item.encodedLength
  cases h with
  | reserved undefined => rw [undefined]
  | mismatch defined other =>
    rw [defined]
    exact if_neg other

/-- An item is sound or has a fault. -/
theorem isSound_or_isFaulty (item : Item) : item.IsSound ∨ ∃ fault, item.IsFaulty fault := by
  unfold IsSound
  cases hwidth : item.key.width? with
  | none => exact .inr ⟨_, .reserved hwidth⟩
  | some w =>
    by_cases hw : w = item.value.width
    · exact .inl (congrArg some hw)
    · exact .inr ⟨_, .mismatch hwidth hw⟩

end Item

/-- Why some items cannot be written into so many bytes. The first fault counts, and the length only
where there is none. -/
inductive Unwritable (available : Nat) : List Item → CodecError → Prop where
  | malformed {before after : List Item} {item : Item} {fault : KeyFault}
      (sound : ∀ earlier ∈ before, earlier.IsSound) (faulty : item.IsFaulty fault) :
      Unwritable available (before ++ item :: after) (.malformed item.key fault)
  | overflow {items : List Item} (sound : ∀ item ∈ items, item.IsSound)
      (long : available < wireSize items) :
      Unwritable available items (.overflow (wireSize items) available)

section Unwritable

variable {available : Nat} {items : List Item} {e : CodecError}

/-- Either all items are sound, or there is a first one that is not. -/
theorem isSound_or_exists_fault (items : List Item) :
    (∀ item ∈ items, item.IsSound)
      ∨ ∃ before item after fault, items = before ++ item :: after
        ∧ (∀ earlier ∈ before, earlier.IsSound) ∧ item.IsFaulty fault := by
  induction items with
  | nil => exact .inl nofun
  | cons item rest ih =>
    rcases item.isSound_or_isFaulty with hsound | ⟨fault, hfaulty⟩
    · rcases ih with hrest | ⟨before, first, after, fault, rfl, hbefore, hfaulty⟩
      · exact .inl (List.forall_mem_cons.mpr ⟨hsound, hrest⟩)
      · exact .inr ⟨item :: before, first, after, fault, rfl,
          List.forall_mem_cons.mpr ⟨hsound, hbefore⟩, hfaulty⟩
    · exact .inr ⟨[], item, rest, fault, rfl, nofun, hfaulty⟩

/-- The first fault is the one that counts. -/
theorem encodedLength_of_isFaulty {before after : List Item} {item : Item} {fault : KeyFault}
    (hsound : ∀ earlier ∈ before, earlier.IsSound) (hfaulty : item.IsFaulty fault) :
    encodedLength (before ++ item :: after) = .error (.malformed item.key fault) := by
  rw [encodedLength_append, encodedLength_of_isSound hsound, encodedLength, hfaulty.encodedLength]
  rfl

/-- Exactly the items that are unfit are refused by the encoder, for the same reason. -/
theorem encodeWithin_eq_error_iff :
    encodeWithin available items = .error e ↔ Unwritable available items e := by
  constructor
  · intro h
    unfold encodeWithin at h
    rcases isSound_or_exists_fault items with hsound | ⟨before, item, after, fault, rfl, hs, hf⟩
    · rw [encodedLength_of_isSound hsound, length_flatMap_toBytes] at h
      dsimp only at h
      by_cases hlong : available < wireSize items
      · rw [if_pos hlong] at h
        cases h
        exact .overflow hsound hlong
      · rw [if_neg hlong] at h
        cases h
    · rw [encodedLength_of_isFaulty hs hf] at h
      cases h
      exact .malformed hs hf
  · intro h
    unfold encodeWithin
    cases h with
    | malformed sound faulty => rw [encodedLength_of_isFaulty sound faulty]
    | overflow sound long =>
      rw [encodedLength_of_isSound sound, length_flatMap_toBytes]
      exact if_pos long

/-- Sound items that fit can be written, and no others. -/
theorem forall_not_unwritable_iff :
    (∀ e, ¬Unwritable available items e)
      ↔ (∀ item ∈ items, item.IsSound) ∧ wireSize items ≤ available := by
  constructor
  · intro h
    rcases isSound_or_exists_fault items with hsound | ⟨before, item, after, fault, rfl, hs, hf⟩
    · exact ⟨hsound, Nat.not_lt.mp fun hlong => h _ (.overflow hsound hlong)⟩
    · exact absurd (.malformed hs hf) (h _)
  · rintro ⟨hsound, hfits⟩ e h
    rw [← encodeWithin_eq_error_iff, encodeWithin, encodedLength_of_isSound hsound,
      length_flatMap_toBytes] at h
    dsimp only at h
    rw [if_neg (Nat.not_lt.mpr hfits)] at h
    cases h

theorem not_unwritable_nil : ¬Unwritable available [] e :=
  forall_not_unwritable_iff.mpr ⟨fun _ hmem => absurd hmem List.not_mem_nil, Nat.zero_le _⟩ e

/-- Items are unfit for one reason only. -/
theorem Unwritable.unique {e' : CodecError} (h : Unwritable available items e)
    (h' : Unwritable available items e') : e = e' := by
  rw [← encodeWithin_eq_error_iff] at h h'
  rw [h] at h'
  exact Except.error.inj h'

theorem Unwritable.lt_wireSize {required limit : Nat}
    (h : Unwritable available items (.overflow required limit)) : available < wireSize items := by
  cases h with
  | overflow sound long => exact long

end Unwritable

namespace WriteMessage

variable {layers : Layers} {t : Transaction} {items : List Item}

theorem frameFor_eq_error_iff {error : WriteError} :
    frameFor layers t items = .error error
      ↔ ∃ e, Unwritable maxDataSize items e ∧ error = .codec e := by
  simp only [← encodeWithin_eq_error_iff]
  unfold frameFor
  cases encodeWithin maxDataSize items with
  | error e =>
    constructor
    · rintro ⟨⟩
      exact ⟨e, rfl, rfl⟩
    · rintro ⟨_, ⟨⟩, rfl⟩
      rfl
  | ok data =>
    constructor
    · nofun
    · rintro ⟨_, ⟨⟩, _⟩

theorem withItems_eq_error_iff {first total : Nat} {error : WriteError} :
    withItems layers t first total items = .error error
      ↔ ∃ e, Unwritable maxDataSize items e ∧ error = .codec e := by
  rw [withItems, map_eq_error_iff, frameFor_eq_error_iff]

/-- A message without items needs nothing but a layer. -/
theorem headerOnly_of_bits (h : layers.bits ≠ 0) :
    ∃ message, headerOnly layers t = .ok message := by
  unfold headerOnly
  have hsome : ¬layers.isEmpty = true := by simpa [Layers.isEmpty] using h
  rw [if_neg hsome]
  cases hframe : frameFor layers t [] with
  | error error =>
    obtain ⟨e, he, -⟩ := frameFor_eq_error_iff.mp hframe
    exact absurd he not_unwritable_nil
  | ok frame => exact ⟨_, rfl⟩

end WriteMessage

/-! ### Several messages -/

/-- Of some runs of items, the one at a place is the first that is unfit for a message. -/
structure FirstUnfit (runs : Nat → List Item) (i : Nat) (e : CodecError) : Prop where
  unfit : Unwritable maxDataSize (runs i) e
  first : ∀ j < i, ∀ e, ¬Unwritable maxDataSize (runs j) e

namespace FirstUnfit

variable {runs : Nat → List Item} {i : Nat} {e e' : CodecError}

/-- Nothing comes before the run at the start. -/
theorem eq_of_zero (h : FirstUnfit runs i e) (hzero : Unwritable maxDataSize (runs 0) e') :
    e = e' := by
  cases i with
  | zero => exact h.unfit.unique hzero
  | succ i => exact absurd hzero (h.first 0 (Nat.succ_pos i) e')

/-- If the run at the start is fit, the others decide. -/
theorem exists_iff_of_fit (hfit : ∀ e, ¬Unwritable maxDataSize (runs 0) e) :
    (∃ i, FirstUnfit runs i e) ↔ ∃ i, FirstUnfit (fun i => runs (i + 1)) i e := by
  constructor
  · rintro ⟨i, h⟩
    cases i with
    | zero => exact absurd h.unfit (hfit e)
    | succ i => exact ⟨i, h.unfit, fun j hj => h.first (j + 1) (Nat.succ_lt_succ hj)⟩
  · rintro ⟨i, h⟩
    refine ⟨i + 1, h.unfit, ?_⟩
    intro j hj
    cases j with
    | zero => exact hfit
    | succ j => exact h.first j (Nat.lt_of_succ_lt_succ hj)

/-- Where some run is unfit there is a first one. -/
theorem exists_of_unwritable {i : Nat} {e : CodecError}
    (h : Unwritable maxDataSize (runs i) e) : ∃ i e, FirstUnfit runs i e := by
  induction i using Nat.strongRecOn generalizing e with
  | ind i ih =>
    by_cases hfirst : ∀ j < i, ∀ e, ¬Unwritable maxDataSize (runs j) e
    · exact ⟨i, e, h, hfirst⟩
    · push Not at hfirst
      obtain ⟨j, hj, e, hearlier⟩ := hfirst
      exact ih j hj hearlier

end FirstUnfit

namespace WriteLimits

/-! ### A write -/

/-- The most items in a message. -/
def itemsPerMessage (limits : WriteLimits) : Nat := max 1 limits.maxItems

/-- The number of messages that so many items need, rounded up. -/
def messagesFor (limits : WriteLimits) (n : Nat) : Nat :=
  (n + limits.itemsPerMessage - 1) / limits.itemsPerMessage

/-- The items for the message at a place; there are none beyond the last. -/
def run (limits : WriteLimits) (items : List Item) (i : Nat) : List Item :=
  (items.drop (i * limits.itemsPerMessage)).take limits.itemsPerMessage

/-- Why a write is refused. Each reason counts only where those above it do not. -/
inductive Refuses (limits : WriteLimits) (items : List Item) (layers : Layers) :
    WriteError → Prop where
  | tooManyItems (many : limits.maxContentMessages < limits.messagesFor items.length) :
      Refuses limits items layers (.tooManyItems items.length (limits.messagesFor items.length)
        limits.maxContentMessages)
  | noLayer (few : limits.messagesFor items.length ≤ limits.maxContentMessages)
      (nowhere : layers.bits = 0) : Refuses limits items layers .noLayer
  | codec {i : Nat} {e : CodecError}
      (few : limits.messagesFor items.length ≤ limits.maxContentMessages)
      (somewhere : layers.bits ≠ 0) (unfit : FirstUnfit (limits.run items) i e) :
      Refuses limits items layers (.codec e)

variable {limits : WriteLimits} {items : List Item} {layers : Layers} {error : WriteError}

theorem length_runs (limits : WriteLimits) (items : List Item) :
    (chunksOf limits.maxItems items).length = limits.messagesFor items.length :=
  length_chunksOf items

theorem getD_runs (limits : WriteLimits) (items : List Item) (i : Nat) :
    (chunksOf limits.maxItems items).getD i [] = limits.run items i := by
  rw [List.getD_eq_getElem?_getD, getElem?_chunksOf, run, itemsPerMessage]
  split
  · rfl
  · next hend => rw [List.drop_eq_nil_of_le (Nat.not_lt.mp hend), List.take_nil, Option.getD_none]

/-- Messages are built one by one until the first that cannot be. -/
theorem contentMessages_eq_error_iff {total first : Nat} {runs : List (List Item × Transaction)} :
    contentMessages layers total first runs = .error error
      ↔ ∃ e, (∃ i, FirstUnfit (fun i => (runs.map Prod.fst).getD i []) i e)
        ∧ error = .codec e := by
  induction runs generalizing first with
  | nil =>
    constructor
    · nofun
    · rintro ⟨e, ⟨i, hunfit⟩, -⟩
      exact absurd hunfit.unfit not_unwritable_nil
  | cons run rest ih =>
    obtain ⟨part, t⟩ := run
    rw [contentMessages]
    by_cases hfit : ∀ e, ¬Unwritable maxDataSize part e
    · have hrest (e : CodecError) :
          (∃ i, FirstUnfit (fun i => (((part, t) :: rest).map Prod.fst).getD i []) i e)
            ↔ ∃ i, FirstUnfit (fun i => (rest.map Prod.fst).getD i []) i e :=
        FirstUnfit.exists_iff_of_fit hfit
      cases hmessage : WriteMessage.withItems layers t first total part with
      | error _ =>
        obtain ⟨e, hunfit, -⟩ := WriteMessage.withItems_eq_error_iff.mp hmessage
        exact absurd hunfit (hfit e)
      | ok message =>
        simp only [hrest]
        rw [map_eq_error_iff, ih]
    · obtain ⟨e, hunfit⟩ := not_forall_not.mp hfit
      have hmessage : WriteMessage.withItems layers t first total part = .error (.codec e) :=
        WriteMessage.withItems_eq_error_iff.mpr ⟨e, hunfit, rfl⟩
      rw [hmessage]
      constructor
      · rintro ⟨⟩
        exact ⟨e, ⟨0, hunfit, nofun⟩, rfl⟩
      · rintro ⟨e', ⟨i, hfirst⟩, rfl⟩
        rw [hfirst.eq_of_zero hunfit]

theorem contentMessages_runs_eq_error_iff (total first : Nat) :
    contentMessages layers total first ((chunksOf limits.maxItems items).zip
        (limits.places (limits.messagesFor items.length))) = .error error
      ↔ ∃ e, (∃ i, FirstUnfit (limits.run items) i e) ∧ error = .codec e := by
  have hall : (chunksOf limits.maxItems items).length
      ≤ (limits.places (limits.messagesFor items.length)).length := by
    apply Nat.le_of_eq
    rw [length_runs, length_places]
  have hruns : (fun i => (chunksOf limits.maxItems items).getD i []) = limits.run items :=
    funext (getD_runs limits items)
  rw [contentMessages_eq_error_iff, List.map_fst_zip hall, hruns]

/-! The order of the reasons: where one applies, those below it do not count. -/

theorem refuses_iff_of_lt (hmany : limits.maxContentMessages < limits.messagesFor items.length) :
    limits.Refuses items layers error
      ↔ .tooManyItems items.length (limits.messagesFor items.length) limits.maxContentMessages
        = error := by
  constructor
  · intro h
    cases h with
    | tooManyItems _ => rfl
    | noLayer few _ => exact absurd hmany (Nat.not_lt.mpr few)
    | codec few _ _ => exact absurd hmany (Nat.not_lt.mpr few)
  · rintro rfl
    exact .tooManyItems hmany

theorem refuses_iff_of_nowhere (hfew : limits.messagesFor items.length ≤ limits.maxContentMessages)
    (hnowhere : layers.bits = 0) : limits.Refuses items layers error ↔ .noLayer = error := by
  constructor
  · intro h
    cases h with
    | tooManyItems many => exact absurd many (Nat.not_lt.mpr hfew)
    | noLayer _ _ => rfl
    | codec _ somewhere _ => exact absurd hnowhere somewhere
  · rintro rfl
    exact .noLayer hfew hnowhere

/-- What is left to fail are the messages with items. -/
theorem refuses_iff_of_somewhere
    (hfew : limits.messagesFor items.length ≤ limits.maxContentMessages)
    (hsomewhere : layers.bits ≠ 0) :
    limits.Refuses items layers error
      ↔ ∃ e, (∃ i, FirstUnfit (limits.run items) i e) ∧ error = .codec e := by
  constructor
  · intro h
    cases h with
    | tooManyItems many => exact absurd many (Nat.not_lt.mpr hfew)
    | noLayer _ nowhere => exact absurd nowhere hsomewhere
    | codec _ _ unfit => exact ⟨_, ⟨_, unfit⟩, rfl⟩
  · rintro ⟨e, ⟨i, hunfit⟩, rfl⟩
    exact .codec hfew hsomewhere hunfit

/-- Exactly the writes that the four conditions refuse are refused, and for that reason. -/
theorem split_eq_error_iff :
    limits.split items layers = .error error ↔ limits.Refuses items layers error := by
  have hbits : layers.isEmpty = true ↔ layers.bits = 0 := by simp [Layers.isEmpty]
  unfold split
  simp only [length_runs]
  by_cases hmany : limits.maxContentMessages < limits.messagesFor items.length
  · rw [if_pos hmany, refuses_iff_of_lt hmany]
    exact ⟨Except.error.inj, congrArg Except.error⟩
  · have hfew := Nat.not_lt.mp hmany
    rw [if_neg hmany]
    by_cases hnone : layers.bits = 0
    · rw [if_pos (hbits.mpr hnone), refuses_iff_of_nowhere hfew hnone]
      exact ⟨Except.error.inj, congrArg Except.error⟩
    · have hruns : contentMessages layers items.length 1 ((chunksOf limits.maxItems items).zip
            (limits.places (limits.messagesFor items.length))) = .error error ↔ _ :=
        contentMessages_runs_eq_error_iff items.length 1
      rw [if_neg (mt hbits.mp hnone), refuses_iff_of_somewhere hfew hnone, ← hruns]
      by_cases hnil : items = []
      · subst hnil
        obtain ⟨message, hmessage⟩ := WriteMessage.headerOnly_of_bits (t := .none) hnone
        rw [hmessage, chunksOf_nil]
        exact iff_of_false nofun nofun
      · rw [if_neg (mt List.isEmpty_iff.mp hnil)]
        cases contentMessages layers items.length 1 ((chunksOf limits.maxItems items).zip
            (limits.places (limits.messagesFor items.length))) with
        | error e => exact Iff.rfl
        | ok messages =>
          obtain ⟨last, hlast⟩ := WriteMessage.headerOnly_of_bits (t := .finish) hnone
          rw [hlast]
          dsimp only
          split <;> exact iff_of_false nofun nofun

theorem exists_split_eq_ok_iff :
    (∃ batch, limits.split items layers = .ok batch)
      ↔ ∀ error, ¬limits.Refuses items layers error := by
  simp only [← split_eq_error_iff]
  cases limits.split items layers with
  | error error => exact iff_of_false nofun fun h => h error rfl
  | ok batch => exact iff_of_true ⟨batch, rfl⟩ fun _ => nofun

/-- What a write must be like so that nothing is said against it. -/
theorem forall_not_refuses_iff :
    (∀ error, ¬limits.Refuses items layers error)
      ↔ limits.messagesFor items.length ≤ limits.maxContentMessages ∧ layers.bits ≠ 0
        ∧ ∀ i, (∀ item ∈ limits.run items i, item.IsSound)
          ∧ wireSize (limits.run items i) ≤ maxDataSize := by
  simp only [← forall_not_unwritable_iff]
  constructor
  · intro h
    have hfew : limits.messagesFor items.length ≤ limits.maxContentMessages :=
      Nat.not_lt.mp fun hmany => h _ (.tooManyItems hmany)
    have hsomewhere : layers.bits ≠ 0 := fun hnowhere => h _ (.noLayer hfew hnowhere)
    refine ⟨hfew, hsomewhere, ?_⟩
    intro i e hunfit
    obtain ⟨first, e, hfirst⟩ := FirstUnfit.exists_of_unwritable hunfit
    exact h _ (.codec hfew hsomewhere hfirst)
  · rintro ⟨hfew, hsomewhere, hfit⟩ error h
    cases h with
    | tooManyItems many => exact absurd many (Nat.not_lt.mpr hfew)
    | noLayer _ nowhere => exact hsomewhere nowhere
    | codec _ _ unfit => exact hfit _ _ unfit.unfit

/-- A message of at most 64 items has room for any of them. -/
theorem wireSize_run_le (h : limits.maxItems ≤ 64) (i : Nat) :
    wireSize (limits.run items i) ≤ maxDataSize := by
  have hsize := wireSize_le (limits.run items i)
  have hcount : (limits.run items i).length ≤ limits.itemsPerMessage := List.length_take_le _ _
  rw [itemsPerMessage] at hcount
  rw [maxDataSize]
  omega

/-- **A write is refused for the first of four reasons that applies**, and otherwise split. -/
theorem split_decided (limits : WriteLimits) (items : List Item) (layers : Layers) :
    let needed := limits.messagesFor items.length
    let most := limits.maxContentMessages
    (∀ n m limit, limits.split items layers = .error (.tooManyItems n m limit)
        ↔ most < needed ∧ n = items.length ∧ m = needed ∧ limit = most)
      ∧ (limits.split items layers = .error .noLayer ↔ needed ≤ most ∧ layers.bits = 0)
      ∧ (∀ e, limits.split items layers = .error (.codec e)
          ↔ needed ≤ most ∧ layers.bits ≠ 0 ∧ ∃ i, FirstUnfit (limits.run items) i e)
      ∧ ((∃ batch, limits.split items layers = .ok batch)
          ↔ needed ≤ most ∧ layers.bits ≠ 0
            ∧ ∀ i, (∀ item ∈ limits.run items i, item.IsSound)
              ∧ wireSize (limits.run items i) ≤ maxDataSize)
      ∧ (limits.maxItems ≤ 64 → ∀ required available,
          limits.split items layers ≠ .error (.codec (.overflow required available))) := by
  intro needed most
  refine ⟨?_, ?_, ?_, ?_, ?_⟩
  · intro n m limit
    rw [split_eq_error_iff]
    constructor
    · intro h
      cases h with
      | tooManyItems many => exact ⟨many, rfl, rfl, rfl⟩
    · rintro ⟨hmany, rfl, rfl, rfl⟩
      exact .tooManyItems hmany
  · rw [split_eq_error_iff]
    constructor
    · intro h
      cases h with
      | noLayer few nowhere => exact ⟨few, nowhere⟩
    · rintro ⟨hfew, hnowhere⟩
      exact .noLayer hfew hnowhere
  · intro e
    rw [split_eq_error_iff]
    constructor
    · intro h
      cases h with
      | codec few somewhere unfit => exact ⟨few, somewhere, _, unfit⟩
    · rintro ⟨hfew, hsomewhere, i, hunfit⟩
      exact .codec hfew hsomewhere hunfit
  · rw [exists_split_eq_ok_iff, forall_not_refuses_iff]
  · intro hsmall required available h
    rw [split_eq_error_iff] at h
    cases h with
    | codec few somewhere unfit =>
      exact absurd unfit.unfit.lt_wireSize (Nat.not_lt.mpr (wireSize_run_le hsmall _))

end WriteLimits
end GnssLink.Config
