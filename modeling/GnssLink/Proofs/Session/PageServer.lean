import GnssLink.Proofs.Session.Pages
import GnssLink.Proofs.Session.Polling
import GnssLink.Proofs.Stream.UbxFrames
/-!
# GnssLink.Proofs.Session.PageServer

**Receivers that answer requests for pages of their configuration.** For each layer and list of keys
such a receiver holds some items (`Holdings`). It answers a request with the page that starts at the
position asked for, and refuses it if no item is there (`Holdings.answer`). A `PageServer` is a link
behind which each request is answered in the stream by one more page, in time.

Design points:

* Whatever else the receiver sends, acknowledgements of its own pages among it, the pages and
  refusals can be read off the stream (`pages`).
* No link delivers bytes for ever, so the requests that will be answered are laid down. A receiver
  that answers whatever it is asked serves any list of them.
* One page is asked for at a time. What the receiver does with a request while a page is on its way
  is left open.
-/

namespace GnssLink

open GnssLink.Config (Item Layer)
open GnssLink.Stream (Message)

/-! ### Pages in a stream -/

/-- Pages and refusals of pages as something that messages say. -/
def pageObservation : Observation (List UInt8) where
  see m := if m.isPage then some m.data else none
  see_of_seq _ _ := rfl
  see_garbage data seq := by
    simp [Message.isPage, Message.pageVerdict, Message.acknowledgement?, Message.id?]

/-- The pages and refusals of pages in a stream, with all their bytes. -/
def pages (stream : List UInt8) : List (List UInt8) := pageObservation.seen stream

theorem toList_see_page (m : Message) :
    (pageObservation.see m).toList = if m.isPage then [m.data] else [] := by
  show (if m.isPage then some m.data else none).toList = _
  split <;> rfl

/-- Pages come as UBX messages only. -/
theorem protocol_of_isPage {m : Message} (h : m.isPage = true) : m.protocol = .ubx := by
  have hrelated : (Session.pagePoll .ram 0 []).classify m ≠ .unrelated := by
    rw [Session.classify_pagePoll]
    simpa [Message.isPage] using h
  exact Poll.protocol_of_related hrelated

/-! ### What a receiver holds -/

/-- The configuration of a receiver: the items that a list of keys stands for in a layer, in their
order. Each of them can be written. -/
structure Holdings where
  items : Layer → List UInt32 → List Item
  sound : ∀ layer keys, ∀ item ∈ items layer keys, item.IsSound

/-- A request for the page that starts at a position. -/
structure PageRequest where
  layer : Layer
  position : UInt16
  keys : List UInt32

/-- The poll that makes the request. -/
def PageRequest.poll (q : PageRequest) : Poll := Session.pagePoll q.layer q.position q.keys

/-- How long such a poll waits. -/
def pageTimeout : Nat := millis 2000

theorem PageRequest.timeout_poll (q : PageRequest) : q.poll.timeout = pageTimeout := rfl

namespace Holdings

variable (holdings : Holdings) (q : PageRequest)

/-- The items on a page. -/
def page : List Item :=
  ((holdings.items q.layer q.keys).drop q.position.toNat).take Config.Query.pageSize

/-- The answer to a request. -/
def answer : Frame :=
  if q.position.toNat < (holdings.items q.layer q.keys).length then
    ⟨.cfgValget, 0x01 :: q.layer.code :: (LittleEndian.encode 2 q.position.toNat
      ++ (holdings.page q).flatMap Item.toBytes)⟩
  else ⟨.ackNak, MessageId.cfgValget.toBytes⟩

end Holdings

/-- A receiver that answers the requests of a list one by one before the time for each is over. It
is known by a relation that reading and writing keep: `Serves requests past coming link` says that
`past` was delivered, that `coming` is on its way, and that the requests will be answered. -/
structure PageServer (σ : Type) [Link σ] (holdings : Holdings) where
  /-- The states in which the receiver may be. -/
  Serves : List PageRequest → List UInt8 → List Coming → σ → Prop
  read : ∀ {requests : List PageRequest}, Delivers (Serves requests)
  /-- Where no page is on its way a request is answered once, and all that has to come until then is
  due before the time is over. -/
  write : ∀ {q : PageRequest} {requests : List PageRequest} {past : List UInt8}
    {coming : List Coming} {link : σ}, Serves (q :: requests) past coming link →
    pages (past ++ bytesOf coming) = pages past →
    ∃ coming' link', Link.write q.poll.frame link = (.ok (), link')
      ∧ Serves requests past coming' link' ∧ Link.now link ≤ Link.now link'
      ∧ pages (past ++ bytesOf coming') = pages past ++ [(holdings.answer q).encode]
      ∧ ∀ x next y, coming' = x ++ next :: y →
        pages (past ++ bytesOf x) ≠ pages (past ++ bytesOf coming') →
        next.due ≤ Link.now link' + pageTimeout

namespace Session

variable {σ : Type} [Link σ] {limit : Nat} {past : List UInt8} {coming : List Coming}
  {s : Session σ}

/-- What ends the poll for a page is a page or the refusal of one. -/
theorem observation_poll (q : PageRequest) : q.poll.observation = pageObservation := by
  have hsee : q.poll.observation.see = pageObservation.see := by
    funext m
    show (if q.poll.classify m = .unrelated then none else some m.data)
      = if m.isPage then some m.data else none
    rw [PageRequest.poll, classify_pagePoll, Message.isPage]
    cases m.pageVerdict <;> rfl
  unfold Poll.observation pageObservation at hsee ⊢
  congr

variable {holdings : Holdings} {server : PageServer σ holdings} {requests : List PageRequest}

/-- A request written makes its answer owed. -/
theorem put_of_expects {q : PageRequest}
    (h : Expects pageObservation (server.Serves (q :: requests)) pageTimeout [] limit past coming
      s) :
    ∃ coming' s', s.put q.poll.frame = (.ok (), s')
      ∧ Expects pageObservation (server.Serves requests) pageTimeout
        [(holdings.answer q).encode] (s'.now + pageTimeout) past coming' s' := by
  -- nothing is owed, so no page is on its way that the answer could be mistaken for
  have hquiet : pages (past ++ bytesOf coming) = pages past := by
    obtain ⟨gone, hgone⟩ := h.read
    have hbuffer : pageObservation.seen s.demux.buffer = [] := by
      have howes := h.owes
      rw [Observation.seen_append] at howes
      exact (List.append_eq_nil_iff.mp howes).1
    have hpast := hgone []
    rw [List.append_nil, List.append_nil, hbuffer] at hpast
    show pageObservation.seen (past ++ bytesOf coming) = pageObservation.seen past
    rw [hgone, h.owes, hpast]
  obtain ⟨coming', link', hwrite, hserves, -, hpages, hdue⟩ := server.write h.serves hquiet
  rw [← hquiet] at hpages
  exact ⟨coming', { s with link := link' }, by rw [put, hwrite], h.of_write hserves hpages hdue⟩

/-- **A request is answered at the first attempt.** -/
theorem exchange_of_expects {q : PageRequest}
    (h : Expects pageObservation (server.Serves (q :: requests)) pageTimeout [] limit past coming
      s) :
    ∃ m limit' past' coming' s',
      exchange q.poll s = (.ok ⟨m, m.pageVerdict == .refusal⟩, s')
        ∧ m.isPage = true ∧ m.data = (holdings.answer q).encode
        ∧ Expects pageObservation (server.Serves requests) pageTimeout [] limit' past' coming'
          s' := by
  obtain ⟨coming₁, s₁, hput, h₁⟩ := put_of_expects h
  have hlate : s₁.now < s₁.now + pageTimeout := Nat.lt_add_of_pos_right (by decide)
  rw [← observation_poll q] at h₁
  obtain ⟨m, past₂, coming₂, s₂, hwait, hrelated, hdata, h₂⟩ :=
    awaitAnswer_of_expects server.read h₁ (Nat.le_refl _) hlate
  have hclassify : q.poll.classify m = m.pageVerdict :=
    classify_pagePoll q.layer q.position q.keys m
  rw [hclassify] at hwait hrelated
  rw [observation_poll q] at h₂
  refine ⟨m, _, past₂, coming₂, s₂, ?_, by simp [Message.isPage, hrelated], hdata, h₂⟩
  have hputPoll : putPoll q.poll s = (.ok (), s₁) := hput
  rw [← q.timeout_poll] at hwait
  exact exchange_of_awaitAnswer (attempts_pagePoll_ne_zero _ _ _) hputPoll hwait

end Session

/-! ### What the answers say -/

namespace Holdings

variable (holdings : Holdings) (q : PageRequest)

/-- Where there are items a page with them is sent. -/
theorem answer_of_lt (h : q.position.toNat < (holdings.items q.layer q.keys).length) :
    holdings.answer q = ⟨.cfgValget, 0x01 :: q.layer.code ::
      (LittleEndian.encode 2 q.position.toNat ++ (holdings.page q).flatMap Item.toBytes)⟩ :=
  if_pos h

theorem answer_of_le (h : (holdings.items q.layer q.keys).length ≤ q.position.toNat) :
    holdings.answer q = ⟨.ackNak, MessageId.cfgValget.toBytes⟩ :=
  if_neg (Nat.not_lt.mpr h)

variable {holdings q} {m : Message}

/-- A page is taken for one, and its items are read. -/
theorem pageVerdict_of_lt (hprotocol : m.protocol = .ubx)
    (hdata : m.data = (holdings.answer q).encode)
    (h : q.position.toNat < (holdings.items q.layer q.keys).length) :
    m.pageVerdict = .answer
      ∧ Config.decode (m.payload.drop Config.Query.headSize) = .ok (holdings.page q) := by
  rw [answer_of_lt holdings q h] at hdata
  obtain ⟨hid, hpayload⟩ := Message.eq_of_data hprotocol hdata
  have hlong : Config.Query.headSize ≤ m.payload.length := by
    rw [hpayload]
    simp [Config.Query.headSize]
  have hitems : m.payload.drop Config.Query.headSize = (holdings.page q).flatMap Item.toBytes := by
    rw [hpayload]
    rfl
  constructor
  · rw [Message.pageVerdict, if_pos ⟨hid, hlong⟩]
  · rw [hitems]
    apply Config.decode_flatMap_toBytes
    intro item hmem
    exact holdings.sound q.layer q.keys item (List.mem_of_mem_drop (List.mem_of_mem_take hmem))

theorem pageVerdict_of_le (hprotocol : m.protocol = .ubx)
    (hdata : m.data = (holdings.answer q).encode)
    (h : (holdings.items q.layer q.keys).length ≤ q.position.toNat) :
    m.pageVerdict = .refusal := by
  rw [answer_of_le holdings q h] at hdata
  obtain ⟨hid, hpayload⟩ := Message.eq_of_data hprotocol hdata
  have hack : m.acknowledgement? = some ⟨false, .cfgValget⟩ := by
    rw [Message.acknowledgement?, hid, hpayload]
    rfl
  rw [Message.pageVerdict, hid, hack]
  rfl

end Holdings
end GnssLink
