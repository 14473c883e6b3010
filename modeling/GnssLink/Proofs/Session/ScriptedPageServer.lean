import GnssLink.Proofs.Session.PageServer
import GnssLink.Proofs.Session.Parcels
import GnssLink.Proofs.Stream.Segments
/-!
# GnssLink.Proofs.Session.ScriptedPageServer

**A script that answers requests for pages is a page server** (`Script.pageServer`). Whole frames
arrive in it, each read taking those of one arrival (`Parcel`), and each of its replies to a request
brings the page asked for soon enough (`Script.IsAnswer`). What else arrives, and when, does not
matter as long as it is no page.
-/

namespace GnssLink

open GnssLink.Stream (layout)

namespace Parcel

/-- The parcel holds whole frames and can be read at once. -/
structure IsWhole (p : Parcel) : Prop where
  nonempty : p.bytes ≠ []
  fits : p.bytes.length ≤ readSize
  whole : (layout p.bytes).2 = []

theorem IsWhole.after {p : Parcel} (h : p.IsWhole) (start : Nat) : (p.after start).IsWhole :=
  ⟨h.nonempty, h.fits, h.whole⟩

theorem pages_append_comingAll {past : List UInt8} {parcels : List Parcel}
    (hpast : (layout past).2 = []) (hwhole : ∀ p ∈ parcels, p.IsWhole) :
    pages (past ++ bytesOf (comingAll parcels))
      = pages past ++ parcels.flatMap fun p => pages p.bytes :=
  seen_append_comingAll hpast fun p hp => (hwhole p hp).whole

end Parcel

namespace Script

/-! ### Arrivals -/

/-- What arrives in the script are these parcels, each of them whole. -/
structure Holds (s : Script) (parcels : List Parcel) : Prop where
  arrives : s.incoming = parcels.map Parcel.arrival
  sorted : parcels.Pairwise fun p q => p.time ≤ q.time
  whole : ∀ p ∈ parcels, p.IsWhole

/-! ### Answers -/

/-- The reply to a request brings the page and no other, soon enough to be read in time. -/
structure IsAnswer (holdings : Holdings) (q : PageRequest) (reply : List Parcel) : Prop where
  whole : ∀ p ∈ reply, p.IsWhole
  page : reply.flatMap (fun p => pages p.bytes) = [(holdings.answer q).encode]
  soon : ∀ p ∈ reply, pages p.bytes ≠ [] → p.time + idleTime ≤ pageTimeout

/-- An answer brings what ends the poll for the page. -/
theorem IsAnswer.bring {holdings : Holdings} {q : PageRequest} {reply : List Parcel}
    (h : IsAnswer holdings q reply) :
    Parcel.Bring q.poll (holdings.answer q).encode pageTimeout reply where
  nonempty p hp := (h.whole p hp).nonempty
  whole p hp := (h.whole p hp).whole
  once := by
    rw [Session.observation_poll]
    exact h.page
  soon := by
    rw [Session.observation_poll]
    exact h.soon

/-- The next replies to requests for pages answer these requests. -/
def AnswersAll (holdings : Holdings) : List PageRequest → List Rule → Prop
  | [], _ => True
  | q :: rest, rules => ∃ reply rules',
    takeReply .cfgValget rules = (reply.map Parcel.delayed, rules') ∧ IsAnswer holdings q reply
      ∧ AnswersAll holdings rest rules'

/-- The script answers some requests, and whole parcels arrive meanwhile. -/
structure ServesPages (holdings : Holdings) (requests : List PageRequest) (past : List UInt8)
    (parcels : List Parcel) (s : Script) : Prop extends Holds s parcels where
  past_whole : (layout past).2 = []
  answers : AnswersAll holdings requests s.rules
  writable : s.failWrite = none
  heard : s.isHeard = true

namespace ServesPages

variable {holdings : Holdings} {requests : List PageRequest} {past : List UInt8}
  {parcels : List Parcel} {s : Script}

/-- Time that passes changes nothing else. -/
theorem wait (h : ServesPages holdings requests past parcels s) (d : Nat) :
    ServesPages holdings requests past parcels (s.wait d) :=
  ⟨⟨h.arrives, h.sorted, h.whole⟩, h.past_whole, h.answers, h.writable, h.heard⟩

/-- A parcel that has arrived is read as a whole. -/
theorem read {p : Parcel} (h : ServesPages holdings requests past (p :: parcels) s) :
    ServesPages holdings requests (past ++ p.bytes.take readSize) (p.unread ++ parcels)
      { s with incoming := (p.unread ++ parcels).map Parcel.arrival } := by
  obtain ⟨hfirst, hrest⟩ := List.forall_mem_cons.mp h.whole
  have htake : p.bytes.take readSize = p.bytes := List.take_of_length_le hfirst.fits
  rw [htake, Parcel.unread_of_fits hfirst.fits, List.nil_append]
  refine ⟨⟨rfl, (List.pairwise_cons.mp h.sorted).2, hrest⟩, ?_, h.answers, h.writable, h.heard⟩
  rw [Stream.layout_append_of_whole _ h.past_whole, hfirst.whole]

/-- A request is answered by one more page. -/
theorem write {q : PageRequest} (h : ServesPages holdings (q :: requests) past parcels s)
    (hquiet : parcels.flatMap (fun p => pages p.bytes) = []) :
    ∃ parcels' s', Script.write q.poll.frame s = (.ok (), s') ∧ s'.now = s.now
      ∧ ServesPages holdings requests past parcels' s'
      ∧ Parcel.Bring q.poll (holdings.answer q).encode (s.now + pageTimeout) parcels' := by
  obtain ⟨reply, rules', htake, hanswer, hrest⟩ := h.answers
  have hid : idOf? q.poll.frame = some .cfgValget := rfl
  obtain ⟨parcels', hwrite, hsorted, hperm⟩ :=
    write_of_reply h.writable h.heard hid htake h.arrives h.sorted
  have haside : ∀ p ∈ parcels, p.IsAside q.poll := by
    intro p hp
    refine ⟨(h.whole p hp).nonempty, (h.whole p hp).whole, ?_⟩
    rw [Session.observation_poll]
    exact List.flatMap_eq_nil_iff.mp hquiet p hp
  have hwhole : ∀ p ∈ parcels', p.IsWhole := by
    intro p hp
    rcases List.mem_append.mp (hperm.subset hp) with hp | hp
    · obtain ⟨p', hp', rfl⟩ := List.mem_map.mp hp
      exact (hanswer.whole p' hp').after s.now
    · exact h.whole p hp
  exact ⟨parcels', _, hwrite, rfl,
    ⟨⟨rfl, hsorted, hwhole⟩, h.past_whole, hrest, h.writable, h.heard⟩,
    hanswer.bring.among s.now haside hperm⟩

end ServesPages

/-- **The script is a page server.** -/
def pageServer (holdings : Holdings) : PageServer Script holdings where
  Serves requests past coming s :=
    ∃ parcels, coming = Parcel.comingAll parcels ∧ ServesPages holdings requests past parcels s
  read := delivers_of_parcels (fun h => ⟨h.arrives, fun p hp => (h.whole p hp).nonempty⟩)
    (fun h => h.wait idleTime) (fun h _ => h.read)
  write := by
    rintro q requests past _ s ⟨parcels, rfl, h⟩ hquiet
    rw [Parcel.pages_append_comingAll h.past_whole h.whole] at hquiet
    obtain ⟨parcels', s', hwrite, hnow, h', hbrings⟩ :=
      h.write (List.append_right_eq_self.mp hquiet)
    obtain ⟨-, hwhole, honce, hsoon⟩ := hbrings
    rw [Session.observation_poll] at honce hsoon
    refine ⟨_, s', hwrite, ⟨parcels', rfl, h'⟩, Nat.le_of_eq hnow.symm, ?_, ?_⟩
    · rw [Parcel.pages_append_comingAll h'.past_whole h'.whole]
      exact congrArg (pages past ++ ·) honce
    · intro x next y hsplit hmissing
      rw [← hnow] at hsoon
      exact Parcel.due_of_sorted h'.past_whole hwhole h'.sorted hsoon hsplit hmissing

/-! ### Plain replies -/

/-- A reply to a request: the page and an acknowledgement of it, or the refusal of a page. -/
def reply (holdings : Holdings) (delay : Nat) (q : PageRequest) : List Parcel :=
  ⟨delay, (holdings.answer q).encode⟩ ::
    if q.position.toNat < (holdings.items q.layer q.keys).length then
      [⟨delay, Frame.encode ⟨.ackAck, MessageId.cfgValget.toBytes⟩⟩]
    else []

/-- Rules that reply to some requests. -/
def rulesFor (holdings : Holdings) (delay : Nat) (requests : List PageRequest) : List Rule :=
  [⟨.cfgValget, requests.map fun q => (reply holdings delay q).map Parcel.delayed⟩]

/-- A frame that fits into one read is a whole parcel. -/
theorem isWhole_frame {f : Frame} (time : Nat) (h : f.payload.length + Frame.overhead ≤ readSize) :
    Parcel.IsWhole ⟨time, f.encode⟩ where
  nonempty := List.cons_ne_nil _ _
  fits := by
    show f.encode.length ≤ readSize
    rwa [Frame.length_encode]
  whole := by
    have hfits : f.payload.length ≤ Stream.Ubx.maxPayload := by
      simp only [Frame.overhead, readSize, Stream.Ubx.maxPayload] at h ⊢
      omega
    show (layout f.encode).2 = []
    rw [Stream.layout_encode hfits]

/-- A frame is one page or none. -/
theorem pages_frame {f : Frame} (h : f.payload.length + Frame.overhead ≤ readSize) :
    pages f.encode
      = if Stream.Message.isPage ⟨.ubx, f.encode, 0⟩ = true then [f.encode] else [] := by
  have hfits : f.payload.length ≤ Stream.Ubx.maxPayload := by
    simp only [Frame.overhead, readSize, Stream.Ubx.maxPayload] at h ⊢
    omega
  rw [pages, Observation.seen, Stream.layout_encode hfits, ← toList_see_page]
  exact pageObservation.filterMap_seePiece_pieces ⟨.ubx, f.encode, 0⟩

/-- An answer fits into one read. -/
theorem length_answer_le (holdings : Holdings) (q : PageRequest) :
    (holdings.answer q).payload.length + Frame.overhead ≤ readSize := by
  by_cases h : q.position.toNat < (holdings.items q.layer q.keys).length
  · have hitems := Config.wireSize_le (holdings.page q)
    have hcount : (holdings.page q).length ≤ Config.Query.pageSize := List.length_take_le _ _
    rw [holdings.answer_of_lt q h]
    simp only [List.length_cons, List.length_append, LittleEndian.length_encode,
      Config.length_flatMap_toBytes, Config.Query.pageSize, Frame.overhead, readSize] at hcount ⊢
    omega
  · rw [holdings.answer_of_le q (Nat.not_lt.mp h)]
    decide

/-- What answers a request is a page or the refusal of one. -/
theorem pages_answer (holdings : Holdings) (q : PageRequest) :
    pages (holdings.answer q).encode = [(holdings.answer q).encode] := by
  rw [pages_frame (length_answer_le holdings q), if_pos]
  by_cases h : q.position.toNat < (holdings.items q.layer q.keys).length
  · have hverdict := (Holdings.pageVerdict_of_lt (m := ⟨.ubx, (holdings.answer q).encode, 0⟩)
      rfl rfl h).1
    rw [Stream.Message.isPage, hverdict]
    rfl
  · have hverdict := Holdings.pageVerdict_of_le (m := ⟨.ubx, (holdings.answer q).encode, 0⟩)
      rfl rfl (Nat.not_lt.mp h)
    rw [Stream.Message.isPage, hverdict]
    rfl

/-- The acknowledgement that comes with a page is no page itself. -/
theorem isAnswer_reply (holdings : Holdings) {delay : Nat} (hsoon : delay + idleTime ≤ pageTimeout)
    (q : PageRequest) : IsAnswer holdings q (reply holdings delay q) where
  whole := by
    intro p hp
    rcases List.mem_cons.mp hp with rfl | hp
    · exact isWhole_frame delay (length_answer_le holdings q)
    · split at hp
      · obtain rfl := List.mem_singleton.mp hp
        exact isWhole_frame delay (by decide)
      · cases hp
  page := by
    have hack : pages (Frame.encode ⟨.ackAck, MessageId.cfgValget.toBytes⟩) = [] := by
      rw [pages_frame (by decide)]
      decide
    rw [reply, List.flatMap_cons, pages_answer]
    split
    · rw [List.flatMap_singleton, hack]
      rfl
    · rfl
  soon := by
    intro p hp _
    rcases List.mem_cons.mp hp with rfl | hp
    · exact hsoon
    · split at hp
      · obtain rfl := List.mem_singleton.mp hp
        exact hsoon
      · cases hp

/-- Rules made for some requests answer them in their order. -/
theorem answersAll_rulesFor (holdings : Holdings) {delay : Nat}
    (hsoon : delay + idleTime ≤ pageTimeout) (requests : List PageRequest) :
    AnswersAll holdings requests (rulesFor holdings delay requests) := by
  induction requests with
  | nil => trivial
  | cons q rest ih => exact ⟨reply holdings delay q, _, rfl, isAnswer_reply holdings hsoon q, ih⟩

end Script
end GnssLink
