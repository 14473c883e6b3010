import Mathlib.Data.List.Forall2
import GnssLink.Config.Write
import GnssLink.Proofs.Config.Codec
import GnssLink.Proofs.Frame.RoundTrip
/-!
# GnssLink.Proofs.Config.Split

**A split write is one transaction with exactly the given items**
(`WriteLimits.split_is_transaction`).

The messages with items are built from the runs of the list and the places in the transaction, one
each (`WriteLimits.contentMessages_eq_ok`). Such a message decodes to its run, as a frame with a
header for its place (`WriteMessage.Carries`). A further message without items may close the write.
-/

namespace GnssLink.Config

namespace WriteMessage

/-- The message is a frame that decodes to the header for its place and to these items. -/
structure Carries (layers : Layers) (message : WriteMessage) (items : List Item) : Prop where
  decodes : ∃ data, decode data = .ok items ∧ Frame.decode message.frame
    = .ok ⟨.cfgValset, 0x01 :: layers.bits :: message.transaction.code :: 0x00 :: data⟩
  counts : message.items = items.length

variable {layers : Layers} {t : Transaction} {items : List Item} {message : WriteMessage}

/-- A frame that is built for a place in the transaction decodes to that place and its items. -/
theorem frameFor_eq_ok {frame : List UInt8} (h : frameFor layers t items = .ok frame) :
    ∃ data, decode data = .ok items
      ∧ Frame.decode frame = .ok ⟨.cfgValset, 0x01 :: layers.bits :: t.code :: 0x00 :: data⟩ := by
  unfold frameFor at h
  split at h
  · cases h
  · next data hdata =>
    cases h
    obtain ⟨hsound, rfl, hfits⟩ := encodeWithin_eq_ok hdata
    refine ⟨_, decode_flatMap_toBytes hsound, Frame.decode_encode ?_⟩
    -- the longest list of items and its header stay far below the limit of the length field
    have : maxDataSize + 4 ≤ Frame.maxPayload := by decide
    simp only [List.length_cons]
    omega

theorem withItems_eq_ok {first total : Nat}
    (h : withItems layers t first total items = .ok message) :
    message.Carries layers items ∧ message.transaction = t := by
  obtain ⟨frame, hframe, rfl⟩ := exists_of_map_eq_ok h
  exact ⟨⟨frameFor_eq_ok hframe, rfl⟩, rfl⟩

theorem headerOnly_eq_ok (h : headerOnly layers t = .ok message) :
    message.Carries layers [] ∧ message.transaction = t := by
  unfold headerOnly at h
  split at h
  · cases h
  · obtain ⟨frame, hframe, rfl⟩ := exists_of_map_eq_ok h
    exact ⟨⟨frameFor_eq_ok hframe, rfl⟩, rfl⟩

end WriteMessage

namespace WriteLimits

variable {limits : WriteLimits} {layers : Layers} {items : List Item}
  {batch : List WriteMessage}

/-- The messages are built one for each run, in the order of the runs. -/
theorem contentMessages_eq_ok {total first : Nat} {runs : List (List Item × Transaction)}
    (h : contentMessages layers total first runs = .ok batch) :
    List.Forall₂ (WriteMessage.Carries layers) batch (runs.map Prod.fst)
      ∧ batch.map WriteMessage.transaction = runs.map Prod.snd := by
  induction runs generalizing first batch with
  | nil =>
    cases h
    exact ⟨.nil, rfl⟩
  | cons run rest ih =>
    obtain ⟨part, t⟩ := run
    rw [contentMessages] at h
    split at h
    · cases h
    · next message hmessage =>
      obtain ⟨hcarries, rfl⟩ := WriteMessage.withItems_eq_ok hmessage
      obtain ⟨messages, hrest, rfl⟩ := exists_of_map_eq_ok h
      obtain ⟨hparts, hplaces⟩ := ih hrest
      exact ⟨.cons hcarries hparts, congrArg _ hplaces⟩

/-- What the messages of a split write are: one message without items if there are none, and
otherwise one for each run, and one that closes a transaction if the limits ask for it. -/
theorem split_eq_ok (h : limits.split items layers = .ok batch) :
    (items = [] ∧ ∃ message, batch = [message] ∧ message.Carries layers []
      ∧ message.transaction = .none)
    ∨ (items ≠ [] ∧ (chunksOf limits.maxItems items).length ≤ limits.maxContentMessages
      ∧ ∃ content closing, batch = content ++ closing
        ∧ List.Forall₂ (WriteMessage.Carries layers) content (chunksOf limits.maxItems items)
        ∧ content.map WriteMessage.transaction
          = limits.places (chunksOf limits.maxItems items).length
        ∧ if 1 < (chunksOf limits.maxItems items).length ∧ limits.emptyFinish = true then
            ∃ last, closing = [last] ∧ last.Carries layers [] ∧ last.transaction = .finish
          else closing = []) := by
  unfold split at h
  simp only at h
  split at h
  · cases h
  · next hfew =>
    split at h
    · cases h
    · split at h
      · next hnil =>
        refine .inl ⟨List.isEmpty_iff.mp hnil, ?_⟩
        obtain ⟨message, hheader, rfl⟩ := exists_of_map_eq_ok h
        -- without items there is a header, which belongs to no transaction
        exact ⟨message, rfl, WriteMessage.headerOnly_eq_ok hheader⟩
      · next hcons =>
        refine .inr ⟨mt List.isEmpty_iff.mpr hcons, Nat.le_of_not_lt hfew, ?_⟩
        split at h
        · cases h
        · next content hcontent =>
          obtain ⟨hcarries, hplaces⟩ := contentMessages_eq_ok hcontent
          rw [List.map_fst_zip (by simp)] at hcarries
          rw [List.map_snd_zip (by simp)] at hplaces
          -- the further message, if there is one, fails only as a frame
          split at h
          · next hclose =>
            obtain ⟨last, hheader, rfl⟩ := exists_of_map_eq_ok h
            refine ⟨content, [last], rfl, hcarries, hplaces, ?_⟩
            rw [if_pos (by simpa using hclose)]
            exact ⟨last, rfl, WriteMessage.headerOnly_eq_ok hheader⟩
          · next hopen =>
            cases h
            refine ⟨batch, [], (List.append_nil _).symm, hcarries, hplaces, ?_⟩
            rw [if_neg (by simpa using hopen)]

/-! ### The items -/

/-- The items of a write are those of its messages one after the other. -/
theorem carries_of_split (h : limits.split items layers = .ok batch) :
    ∃ parts, List.Forall₂ (WriteMessage.Carries layers) batch parts ∧ parts.flatten = items
      ∧ ∀ part ∈ parts, part.length ≤ max 1 limits.maxItems := by
  rcases split_eq_ok h with ⟨rfl, message, rfl, hcarries, -⟩
    | ⟨-, -, content, closing, rfl, hcarries, -, hclosing⟩
  · exact ⟨[[]], .cons hcarries .nil, rfl, by simp⟩
  · have hruns : ∀ run ∈ chunksOf limits.maxItems items, run.length ≤ max 1 limits.maxItems :=
      fun run hrun => (length_of_mem_chunksOf hrun).2
    split at hclosing
    · obtain ⟨last, rfl, hlast, -⟩ := hclosing
      refine ⟨chunksOf limits.maxItems items ++ [[]],
        List.rel_append hcarries (.cons hlast .nil), by simp, ?_⟩
      intro part hpart
      rcases List.mem_append.mp hpart with hrun | hempty
      · exact hruns part hrun
      · simp [List.mem_singleton.mp hempty]
    · subst hclosing
      exact ⟨_, by simpa using hcarries, flatten_chunksOf items, hruns⟩

theorem items_pos_of_carries {content : List WriteMessage} {runs : List (List Item)}
    (h : List.Forall₂ (WriteMessage.Carries layers) content runs)
    (hruns : ∀ run ∈ runs, 0 < run.length) : ∀ message ∈ content, 0 < message.items := by
  induction h with
  | nil => nofun
  | cons hcarries _ ih =>
    obtain ⟨hrun, hruns⟩ := List.forall_mem_cons.mp hruns
    exact List.forall_mem_cons.mpr ⟨hcarries.counts ▸ hrun, ih hruns⟩

/-! ### The places -/

/-- With a message of its own to finish the transaction, no message with items finishes it. -/
theorem ne_finish_of_mem_places {n : Nat} {t : Transaction} (hempty : limits.emptyFinish = true)
    (h : t ∈ limits.places n) : t ≠ .finish := by
  match n with
  | 0 => cases h
  | 1 =>
    rw [List.mem_singleton.mp h]
    decide
  | n + 2 =>
    simp only [places, hempty, ↓reduceIte, List.cons_append, List.mem_cons, List.mem_append,
      List.mem_replicate, List.not_mem_nil, or_false] at h
    rcases h with rfl | ⟨-, rfl⟩ | rfl <;> decide

/-- Several messages open a transaction, and the last one finishes it. -/
theorem places_append_closing (limits : WriteLimits) (n : Nat) :
    ∃ k, limits.places (n + 2) ++ (if limits.emptyFinish then [.finish] else [])
      = .start :: List.replicate k .proceed ++ [.finish] := by
  cases hempty : limits.emptyFinish with
  | true =>
    refine ⟨n + 1, ?_⟩
    simp [places, hempty, List.replicate_succ']
  | false =>
    refine ⟨n, ?_⟩
    simp [places, hempty]

theorem transaction_of_split_of_le (h : limits.split items layers = .ok batch)
    (hle : items.length ≤ max 1 limits.maxItems) :
    batch.map WriteMessage.transaction = [.none] := by
  rcases split_eq_ok h with ⟨rfl, message, rfl, -, hnone⟩
    | ⟨hcons, -, content, closing, rfl, -, hplaces, hclosing⟩
  · exact congrArg ([·]) hnone
  · have hone : (chunksOf limits.maxItems items).length = 1 := by
      have hpos : 0 < (chunksOf limits.maxItems items).length :=
        List.length_pos_iff.mpr (mt chunksOf_eq_nil_iff.mp hcons)
      have hfew := length_chunksOf_le_one_iff.mpr hle
      omega
    rw [hone] at hplaces hclosing
    rw [if_neg (by omega)] at hclosing
    rw [List.map_append, hplaces, hclosing]
    rfl

/-- More items than fit in one message are written between a start and a finish. -/
theorem transactions_of_split_of_lt (h : limits.split items layers = .ok batch)
    (hlt : max 1 limits.maxItems < items.length) :
    ∃ k, batch.map WriteMessage.transaction
      = .start :: List.replicate k .proceed ++ [.finish] := by
  rcases split_eq_ok h with ⟨rfl, -⟩ | ⟨-, -, content, closing, rfl, -, hplaces, hclosing⟩
  · exact absurd hlt (by simp)
  · obtain ⟨n, hn⟩ : ∃ n, (chunksOf limits.maxItems items).length = n + 2 := by
      have hmany := mt length_chunksOf_le_one_iff.mp (Nat.not_le_of_lt hlt)
      exact ⟨(chunksOf limits.maxItems items).length - 2, by omega⟩
    obtain ⟨k, hk⟩ := places_append_closing limits n
    refine ⟨k, ?_⟩
    rw [List.map_append, hplaces, hn, ← hk]
    split at hclosing
    · next hempty =>
      obtain ⟨last, rfl, -, hfinish⟩ := hclosing
      rw [if_pos hempty.2]
      exact congrArg (_ ++ [·]) hfinish
    · next hopen =>
      rw [hclosing, if_neg (fun hempty => hopen ⟨by omega, hempty⟩)]
      rfl

/-! ### The numbers -/

/-- The message that finishes a transaction is empty if the limits say so, and no other one is. -/
theorem items_eq_zero_iff_of_split (h : limits.split items layers = .ok batch)
    (hcons : items ≠ []) :
    ∀ message ∈ batch, message.items = 0
      ↔ message.transaction = .finish ∧ limits.emptyFinish = true := by
  rcases split_eq_ok h with ⟨hnil, -⟩
    | ⟨-, -, content, closing, rfl, hcarries, hplaces, hclosing⟩
  · exact absurd hnil hcons
  · intro message hmem
    rcases List.mem_append.mp hmem with hmem | hmem
    · have hpos := items_pos_of_carries hcarries (fun run hrun => (length_of_mem_chunksOf hrun).1)
        message hmem
      refine ⟨fun hzero => by omega, ?_⟩
      rintro ⟨hfinish, hempty⟩
      have hplace := hplaces ▸ List.mem_map_of_mem (f := WriteMessage.transaction) hmem
      exact absurd hfinish (ne_finish_of_mem_places hempty hplace)
    · split at hclosing
      · next hempty =>
        obtain ⟨last, rfl, hlast, hfinish⟩ := hclosing
        rw [List.mem_singleton.mp hmem]
        exact ⟨fun _ => ⟨hfinish, hempty.2⟩, fun _ => hlast.counts⟩
      · rw [hclosing] at hmem
        cases hmem

theorem length_le_of_split (h : limits.split items layers = .ok batch) (hcons : items ≠ []) :
    batch.length ≤ limits.maxMessages := by
  rcases split_eq_ok h with ⟨hnil, -⟩
    | ⟨-, hfew, content, closing, rfl, hcarries, -, hclosing⟩
  · exact absurd hnil hcons
  · have hlength := hcarries.length_eq
    unfold maxContentMessages at hfew
    split at hclosing
    · next hempty =>
      obtain ⟨last, rfl, -⟩ := hclosing
      rw [if_pos hempty.2] at hfew
      rw [List.length_append, List.length_singleton]
      omega
    · subst hclosing
      rw [List.append_nil]
      split at hfew <;> omega

/-- **A split write is one transaction with exactly the given items.** -/
theorem split_is_transaction (h : limits.split items layers = .ok batch) :
    (∃ parts, List.Forall₂ (WriteMessage.Carries layers) batch parts ∧ parts.flatten = items
        ∧ ∀ part ∈ parts, part.length ≤ max 1 limits.maxItems)
      ∧ (items.length ≤ max 1 limits.maxItems →
          batch.map WriteMessage.transaction = [.none])
      ∧ (max 1 limits.maxItems < items.length → ∃ k, batch.map WriteMessage.transaction
          = .start :: List.replicate k .proceed ++ [.finish])
      ∧ (∀ message ∈ batch, message.transaction = .finish →
          (message.items = 0 ↔ limits.emptyFinish = true))
      ∧ (1 < batch.length → ∀ message ∈ batch, message.transaction ≠ .finish →
          0 < message.items)
      ∧ (items ≠ [] → batch.length ≤ limits.maxMessages) := by
  refine ⟨carries_of_split h, transaction_of_split_of_le h, transactions_of_split_of_lt h,
    ?_, ?_, length_le_of_split h⟩
  · intro message hmem hfinish
    have hcons : items ≠ [] := by
      rintro rfl
      have hplaces := transaction_of_split_of_le h (by simp)
      have hplace := hplaces ▸ List.mem_map_of_mem (f := WriteMessage.transaction) hmem
      rw [hfinish] at hplace
      cases List.mem_singleton.mp hplace
    rw [items_eq_zero_iff_of_split h hcons message hmem]
    exact and_iff_right hfinish
  · intro hseveral message hmem hopen
    have hcons : items ≠ [] := by
      rintro rfl
      have hplaces := congrArg List.length (transaction_of_split_of_le h (by simp))
      rw [List.length_map] at hplaces
      exact absurd hseveral (by rw [hplaces]; decide)
    apply Nat.pos_of_ne_zero
    intro hzero
    exact hopen ((items_eq_zero_iff_of_split h hcons message hmem).mp hzero).1

/-- Five items of one byte each. -/
def fiveItems : List Item := [1, 2, 3, 4, 5].map fun n => ⟨⟨0x20110021⟩, .one n⟩

theorem split_fiveItems : ∃ batch parts k,
    split { maxItems := 3 } fiveItems ⟨1⟩ = .ok batch
      ∧ List.Forall₂ (WriteMessage.Carries ⟨1⟩) batch parts ∧ parts.flatten = fiveItems
      ∧ batch.map WriteMessage.transaction
        = .start :: List.replicate k .proceed ++ [.finish] := by
  have hruns : chunksOf 3 fiveItems = [fiveItems.take 3, fiveItems.drop 3] := by
    simp [fiveItems, chunksOf_cons]
  cases h : split { maxItems := 3 } fiveItems ⟨1⟩ with
  | error e =>
    unfold split at h
    rw [hruns] at h
    cases h
  | ok batch =>
    obtain ⟨⟨parts, hcarries, hitems, -⟩, -, hplaces, -⟩ := split_is_transaction h
    obtain ⟨k, hk⟩ := hplaces (by decide)
    exact ⟨batch, parts, k, rfl, hcarries, hitems, hk⟩

end WriteLimits
end GnssLink.Config
