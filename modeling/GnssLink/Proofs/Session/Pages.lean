import GnssLink.Proofs.Config.Codec
import GnssLink.Proofs.Session.Calls
import GnssLink.Proofs.Session.Rounds
/-!
# GnssLink.Proofs.Session.Pages

**Which messages a read of the configuration takes for its pages** (`Session.pages_of_getConfig`).
The head of a page says of which layer it is and where it starts, as does the poll for it. But any
page answers the poll for any other (`classify_pagePoll`): the messages that a read takes are all
pages that are received meanwhile, each for the poll whose turn it is. They belong to these polls
exactly if they come in step with them (`InStep`), and a late page does not.
-/

namespace GnssLink

open GnssLink.Config (Item Layer)
open GnssLink.Stream (Message)

/-! ### Pages -/

/-- What a message is to a poll for a page, whichever page that is. -/
def Stream.Message.pageVerdict (m : Message) : Relevance :=
  if m.id? = some .cfgValget ∧ Config.Query.headSize ≤ m.payload.length then .answer
  else if m.acknowledgement? = some ⟨false, .cfgValget⟩ then .refusal
  else .unrelated

/-- Whether a message is a page or refuses one. -/
def Stream.Message.isPage (m : Message) : Bool := m.pageVerdict != .unrelated

/-- The items on a page. A refusal has none. -/
def Stream.Message.pageItems (m : Message) : List Item :=
  match m.pageVerdict, Config.decode (m.payload.drop Config.Query.headSize) with
  | .answer, .ok items => items
  | _, _ => []

/-- The layer and the position in the head of a page or of a poll for one. -/
def pageHead (payload : List UInt8) : List UInt8 := (payload.drop 1).take 3

/-- The position of the poll that follows when a message was taken for the page at a position. A
full page is followed by the next one, any other by the first page for other keys. -/
def positionAfter (position : UInt16) (m : Message) : UInt16 :=
  if m.pageItems.length < Config.Query.pageSize then 0 else Session.nextPosition position

/-- The messages are the pages that are asked for one after the other from a position on, or refuse
them. -/
def InStep (layer : Layer) : UInt16 → List Message → Prop
  | _, [] => True
  | position, m :: rest =>
    (m.pageVerdict = .answer →
        pageHead m.payload = pageHead (Config.Query.payload layer position []))
      ∧ InStep layer (positionAfter position m) rest

namespace Session

/-- The poll for a page does not look at the head of what answers it. -/
theorem classify_pagePoll (layer : Layer) (position : UInt16) (keys : List UInt32) (m : Message) :
    (pagePoll layer position keys).classify m = m.pageVerdict := by
  unfold Poll.classify Message.pageVerdict
  show (if m.id? = some .cfgValget ∧ Config.Query.headSize ≤ m.payload.length then _ else _) = _
  split
  · rfl
  · rcases m.acknowledgement? with _ | ⟨accepted, id⟩
    · rfl
    · show (if id ≠ .cfgValget then _ else _) = _
      by_cases hid : id = .cfgValget
      · cases accepted <;> simp [hid, pagePoll]
      · cases accepted <;> simp [hid]

/-- The head of a poll does not depend on the keys that it asks for. -/
theorem pageHead_pagePoll (layer : Layer) (position : UInt16) (keys : List UInt32) :
    pageHead (pagePoll layer position keys).payload
      = pageHead (Config.Query.payload layer position []) := by
  have hlength : (LittleEndian.encode 2 position.toNat).length = 2 :=
    LittleEndian.length_encode 2 position.toNat
  show (layer.code :: (LittleEndian.encode 2 position.toNat ++ _)).take 3
    = (layer.code :: (LittleEndian.encode 2 position.toNat ++ [])).take 3
  rw [List.append_nil, List.take_succ_cons, List.take_succ_cons,
    List.take_append_of_le_length (by omega)]

/-- Every page that a poll is answered with is the one that was asked for. -/
def PagesMatch (journal : List Entry) : Prop :=
  ∀ poll m, .answered poll m ∈ journal → m.pageVerdict = .answer →
    pageHead m.payload = pageHead poll.payload

/-! ### Turns

A read of pages takes turns with the receiver: a poll, then the first message that may answer it. -/

/-- The polls are those for the pages that follow one after the other from a position on. -/
inductive Asks (layer : Layer) : UInt16 → List (Poll × Message) → UInt16 → Prop where
  | nil {position : UInt16} : Asks layer position [] position
  | cons {position next : UInt16} {poll : Poll} {m : Message} {turns : List (Poll × Message)}
      (head : pageHead poll.payload = pageHead (Config.Query.payload layer position []))
      (more : Asks layer (positionAfter position m) turns next) :
      Asks layer position ((poll, m) :: turns) next

theorem Asks.append {layer : Layer} {position next last : UInt16}
    {turns more : List (Poll × Message)} (h : Asks layer position turns next)
    (hmore : Asks layer next more last) : Asks layer position (turns ++ more) last := by
  induction h with
  | nil => exact hmore
  | cons head _ ih => exact .cons head (ih hmore)

/-- The pages are those that are asked for if they come in step with the polls. -/
theorem Asks.forall_iff {layer : Layer} {position next : UInt16} {turns : List (Poll × Message)}
    (h : Asks layer position turns next) :
    (∀ poll m, (poll, m) ∈ turns → m.pageVerdict = .answer →
        pageHead m.payload = pageHead poll.payload)
      ↔ InStep layer position (turns.map Prod.snd) := by
  induction h with
  | nil => simp [InStep]
  | @cons position _ poll m _ head _ ih =>
    rw [List.map_cons, InStep, ← ih, ← head]
    simp only [List.mem_cons, Prod.mk.injEq]
    constructor
    · intro hall
      exact ⟨hall poll m (.inl ⟨rfl, rfl⟩), fun poll' m' hmem => hall poll' m' (.inr hmem)⟩
    · rintro ⟨hfirst, hrest⟩ poll' m' (⟨rfl, rfl⟩ | hmem)
      · exact hfirst
      · exact hrest poll' m' hmem

/-- The journal of a read of pages from a position on. -/
structure ReadsPages (layer : Layer) (position next : UInt16) (journal : List Entry) : Prop where
  taken : answered journal = (received journal).filter Message.isPage
  asks : Asks layer position (turns journal) next

namespace ReadsPages

variable {layer : Layer} {position next last : UInt16} {journal more : List Entry}

theorem nil : ReadsPages layer position position [] := ⟨rfl, .nil⟩

theorem append (h : ReadsPages layer position next journal)
    (hmore : ReadsPages layer next last more) :
    ReadsPages layer position last (journal ++ more) where
  taken := by
    rw [answered_append, received_append, List.filter_append, h.taken, hmore.taken]
  asks := by
    rw [turns_append]
    exact h.asks.append hmore.asks

/-- In a read of pages the right ones answer exactly if those received come in step. -/
theorem pagesMatch_iff (h : ReadsPages layer position next journal) :
    PagesMatch journal ↔ InStep layer position ((received journal).filter Message.isPage) := by
  rw [← h.taken, answered_eq_map_turns, ← h.asks.forall_iff]
  simp only [PagesMatch, mem_turns_iff]

end ReadsPages

variable {σ : Type} [Link σ]

/-! ### One exchange -/

/-- A wait ends with the first message that has to do with its poll. -/
theorem answered_eq_filter_of_awaitAnswer (poll : Poll) (deadline : Nat) (s : Session σ) :
    answered (awaitAnswerJournal poll deadline s)
      = (received (awaitAnswerJournal poll deadline s)).filter
          fun m => poll.classify m != .unrelated := by
  fun_induction awaitAnswer poll deadline s with
  | case1 s hlate =>
    rw [awaitAnswerJournal, if_pos hlate]
    rfl
  | case2 s _ e s₁ hr =>
    rw [awaitAnswerJournal_of_none hr (by simp)]
    rfl
  | case3 s _ s₁ hr =>
    rw [awaitAnswerJournal_of_none hr (by simp)]
    rfl
  | case4 s htime m s₁ hr hclass =>
    rw [awaitAnswerJournal_of_some htime hr, hclass]
    simp [answered, received, Entry.answered?, Entry.received?, hclass]
  | case5 s htime m s₁ hr hclass =>
    rw [awaitAnswerJournal_of_some htime hr, hclass]
    simp [answered, received, Entry.answered?, Entry.received?, hclass]
  | case6 s htime m s₁ hr hclass _ ih =>
    rw [awaitAnswerJournal_of_some htime hr, hclass]
    simp only
    rw [answered_append, received_append, List.filter_append, ih, received_keepJournal,
      answered_eq_map_turns, turns_keepJournal]
    simp [hclass]

theorem answered_eq_filter_of_tryPoll (poll : Poll) (n : Nat) (s : Session σ) :
    answered (tryPollJournal poll n s)
      = (received (tryPollJournal poll n s)).filter fun m => poll.classify m != .unrelated := by
  induction n generalizing s with
  | zero => rfl
  | succ n ih =>
    unfold tryPollJournal
    rcases putPoll poll s with ⟨e | _, s₁⟩
    · rfl
    · simp only [Outcome.thenTell]
      rw [answered_append, received_append, List.filter_append,
        answered_eq_filter_of_awaitAnswer]
      rcases awaitAnswer poll (s₁.now + poll.timeout) s₁ with ⟨e | _ | answer, s₂⟩
      · rfl
      · simp only [ih s₂]
      · rfl

/-- What a wait answers was seen to be an answer or a refusal. -/
theorem classify_of_awaitAnswer {poll : Poll} {deadline : Nat} {s s' : Session σ} {answer : Answer}
    (h : awaitAnswer poll deadline s = (.ok (some answer), s')) :
    poll.classify answer.message = if answer.refused then .refusal else .answer := by
  fun_induction awaitAnswer poll deadline s with
  | case1 => cases h
  | case2 => cases h
  | case3 => cases h
  | case4 _ _ _ _ _ hclass => cases h; exact hclass
  | case5 _ _ _ _ _ hclass => cases h; exact hclass
  | case6 _ _ _ _ _ _ _ ih => exact ih h

theorem classify_of_exchange {poll : Poll} {s s' : Session σ} {answer : Answer}
    (h : exchange poll s = (.ok answer, s')) :
    poll.classify answer.message = if answer.refused then .refusal else .answer := by
  -- by the attempts left: those before the last have no answer that could be of another kind
  have htry (n : Nat) (s : Session σ) (h : tryPoll poll n s = (.ok (some answer), s')) :
      poll.classify answer.message = if answer.refused then .refusal else .answer := by
    induction n generalizing s with
    | zero => cases h
    | succ n ih =>
      unfold tryPoll at h
      rcases hput : putPoll poll s with ⟨e | _, s₁⟩
      · rw [hput] at h
        cases h
      · rw [hput, Outcome.andThen_ok] at h
        rcases hwait : awaitAnswer poll (s₁.now + poll.timeout) s₁ with ⟨e | _ | first, s₂⟩ <;>
          rw [hwait] at h
        · cases h
        · exact ih s₂ h
        · cases h
          exact classify_of_awaitAnswer hwait
  unfold exchange at h
  rcases hresult : tryPoll poll poll.attempts s with ⟨e | _ | first, s₁⟩ <;> rw [hresult] at h
  · cases h
  · cases h
  · cases h
    exact htry _ _ hresult

theorem pageVerdict_of_exchange {layer : Layer} {keys : List UInt32} {position : UInt16}
    {s s' : Session σ} {answer : Answer}
    (hpoll : exchange (pagePoll layer position keys) s = (.ok answer, s')) :
    answer.message.pageVerdict = if answer.refused then .refusal else .answer := by
  rw [← classify_pagePoll layer position keys]
  exact classify_of_exchange hpoll

/-- What a read takes for the items of a page are those on the message that came. -/
theorem pageItems_of_exchange {layer : Layer} {keys : List UInt32} {position : UInt16}
    {s s' : Session σ} {answer : Answer} {items : List Item}
    (hpoll : exchange (pagePoll layer position keys) s = (.ok answer, s'))
    (hgiven : ¬answer.refused = true)
    (hdecode : Config.decode (answer.message.payload.drop Config.Query.headSize) = .ok items) :
    answer.message.pageItems = items := by
  rw [Message.pageItems, pageVerdict_of_exchange hpoll, if_neg hgiven, hdecode]

/-- A poll for a page takes the first page that comes. -/
theorem taken_exchange (layer : Layer) (keys : List UInt32) (position : UInt16) (s : Session σ) :
    answered (exchangeJournal (pagePoll layer position keys) s)
      = (received (exchangeJournal (pagePoll layer position keys) s)).filter Message.isPage := by
  have hsame : Message.isPage
      = fun m => (pagePoll layer position keys).classify m != .unrelated := by
    funext m
    rw [classify_pagePoll]
    rfl
  rw [hsame]
  exact answered_eq_filter_of_tryPoll _ _ s

/-- An exchange is one turn, if it gives an answer. -/
theorem readsPages_exchange {layer : Layer} {keys : List UInt32} {position : UInt16}
    {s s₁ : Session σ} {answer : Answer}
    (hpoll : exchange (pagePoll layer position keys) s = (.ok answer, s₁)) :
    ReadsPages layer position (positionAfter position answer.message)
      (exchangeJournal (pagePoll layer position keys) s) where
  taken := taken_exchange layer keys position s
  asks := by
    rw [turns_exchangeJournal, hpoll]
    exact .cons (pageHead_pagePoll layer position keys) .nil

theorem readsPages_exchange_of_error {layer : Layer} {keys : List UInt32} {position : UInt16}
    {s s₁ : Session σ} {e : SessionError}
    (hpoll : exchange (pagePoll layer position keys) s = (.error e, s₁)) :
    ReadsPages layer position position (exchangeJournal (pagePoll layer position keys) s) where
  taken := taken_exchange layer keys position s
  asks := by
    rw [turns_exchangeJournal, hpoll]
    exact .nil

theorem answered_of_exchange {poll : Poll} {s s₁ : Session σ} {answer : Answer}
    (hpoll : exchange poll s = (.ok answer, s₁)) :
    answered (exchangeJournal poll s) = [answer.message] := by
  rw [answered_exchangeJournal, hpoll]

/-! ### Whole reads -/

/-- Pages are read from a position on; with the last one the read is back at the start. -/
theorem readsPages_readPages (layer : Layer) (keys : List UInt32) (position : UInt16)
    (s : Session σ) :
    ∃ next, ReadsPages layer position next (readPagesJournal layer keys position s)
      ∧ ∀ items, (readPages layer keys position s).1 = .ok items → next = 0
        ∧ items
          = (answered (readPagesJournal layer keys position s)).flatMap Message.pageItems := by
  fun_induction readPages layer keys position s with
  | case1 position s e s₁ hpoll =>
    refine ⟨position, ?_, fun _ hok => by cases hok⟩
    rw [readPagesJournal]
    split
    · exact (readsPages_exchange_of_error hpoll).append .nil
    · next hpoll' => rw [hpoll] at hpoll'; cases hpoll'
  | case2 s answer s₁ hrefused hpoll =>
    refine ⟨positionAfter 0 answer.message, ?_, fun _ hok => by cases hok⟩
    rw [readPagesJournal_of_ok hpoll, if_pos hrefused]
    exact (readsPages_exchange hpoll).append .nil
  | case3 position s answer s₁ hpoll hrefused _ =>
    have hitems : answer.message.pageItems = [] := by
      rw [Message.pageItems, pageVerdict_of_exchange hpoll, if_pos hrefused]
    refine ⟨positionAfter position answer.message, ?_, ?_⟩
    · rw [readPagesJournal_of_ok hpoll, if_pos hrefused]
      exact (readsPages_exchange hpoll).append .nil
    · rintro _ ⟨⟩
      refine ⟨by rw [positionAfter, hitems]; rfl, ?_⟩
      rw [readPagesJournal_of_ok hpoll, if_pos hrefused, List.append_nil,
        answered_of_exchange hpoll, List.flatMap_singleton, hitems]
  | case4 position s answer s₁ hpoll hgiven e hdecode =>
    refine ⟨positionAfter position answer.message, ?_, fun _ hok => by cases hok⟩
    rw [readPagesJournal_of_ok hpoll, if_neg hgiven, hdecode]
    exact (readsPages_exchange hpoll).append .nil
  | case5 position s answer s₁ hpoll hgiven items hdecode hlast =>
    have hitems : answer.message.pageItems = items := pageItems_of_exchange hpoll hgiven hdecode
    have hjournal : readPagesJournal layer keys position s
        = exchangeJournal (pagePoll layer position keys) s := by
      rw [readPagesJournal_of_ok hpoll, if_neg hgiven, hdecode]
      dsimp only
      rw [if_pos hlast, List.append_nil]
    refine ⟨positionAfter position answer.message, ?_, ?_⟩
    · rw [hjournal]
      exact readsPages_exchange hpoll
    · rintro _ ⟨⟩
      refine ⟨by rw [positionAfter, hitems, if_pos hlast], ?_⟩
      rw [hjournal, answered_of_exchange hpoll, List.flatMap_singleton, hitems]
  | case6 position s answer s₁ hpoll hgiven items hdecode hmore _ ih =>
    -- a full page: the position that it leaves is the one that the rest of the read starts from
    have hitems : answer.message.pageItems = items := pageItems_of_exchange hpoll hgiven hdecode
    have hposition : positionAfter position answer.message = nextPosition position := by
      rw [positionAfter, hitems, if_neg hmore]
    have hjournal : readPagesJournal layer keys position s
        = exchangeJournal (pagePoll layer position keys) s
          ++ readPagesJournal layer keys (nextPosition position) s₁ := by
      rw [readPagesJournal_of_ok hpoll, if_neg hgiven, hdecode]
      dsimp only
      rw [if_neg hmore]
    obtain ⟨next, hreads, hrest⟩ := ih
    refine ⟨next, ?_, ?_⟩
    · rw [hjournal]
      exact (readsPages_exchange hpoll).append (hposition ▸ hreads)
    · intro all hall
      rcases hresult : readPages layer keys (nextPosition position) s₁ with ⟨e | more, s₂⟩ <;>
        rw [hresult] at hall hrest
      · cases hall
      · cases hall
        obtain ⟨hnext, hmoreItems⟩ := hrest more rfl
        refine ⟨hnext, ?_⟩
        rw [hjournal, answered_append, List.flatMap_append, answered_of_exchange hpoll,
          List.flatMap_singleton, hitems, ← hmoreItems]

/-- A read of several lists of keys starts anew at position 0 for each, where the one before it
ended. -/
theorem readsPages_readAll (layer : Layer) (lists : List (List UInt32)) (s : Session σ) :
    ∃ next, ReadsPages layer 0 next (readAllJournal layer lists s)
      ∧ ∀ items, (readAll layer lists s).1 = .ok items →
        items = (answered (readAllJournal layer lists s)).flatMap Message.pageItems := by
  induction lists generalizing s with
  | nil =>
    refine ⟨0, .nil, ?_⟩
    rintro _ ⟨⟩
    rfl
  | cons keys rest ih =>
    obtain ⟨next, hreads, hitems⟩ := readsPages_readPages layer keys 0 s
    unfold readAllJournal readAll
    rcases hfirst : readPages layer keys 0 s with ⟨e | first, s₁⟩ <;> rw [hfirst] at hitems
    · exact ⟨next, hreads.append .nil, nofun⟩
    · obtain ⟨rfl, hfirstItems⟩ := hitems first rfl
      obtain ⟨last, hrest, hrestItems⟩ := ih s₁
      refine ⟨last, hreads.append hrest, ?_⟩
      intro all hall
      rw [Outcome.andThen_ok] at hall
      rcases hmore : readAll layer rest s₁ with ⟨e | more, s₂⟩ <;> rw [hmore] at hall hrestItems
      · cases hall
      · cases hall
        rw [answered_append, List.flatMap_append, ← hfirstItems]
        exact congrArg (first ++ ·) (hrestItems more rfl)

theorem getConfig_of_isOpen {s : Session σ} (hopen : s.phase.isOpen = true) (layer : Layer)
    (keys : List UInt32) :
    (s.getConfig layer keys).1
      = (readAll layer (Config.chunksOf Config.Query.pageSize keys)
          { s with phase := .busy }).1 := by
  unfold getConfig whenOpen
  rw [if_pos hopen]
  rfl

theorem journal_getConfig_of_isOpen {s : Session σ} (hopen : s.phase.isOpen = true) (layer : Layer)
    (keys : List UInt32) :
    Call.journal s (.getConfig layer keys)
      = readAllJournal layer (Config.chunksOf Config.Query.pageSize keys)
        { s with phase := .busy } :=
  if_pos hopen

/-- A session that is not open reads no pages, which is a read of pages too. -/
theorem readsPages_getConfig (s : Session σ) (layer : Layer) (keys : List UInt32) :
    ∃ next, ReadsPages layer 0 next (Call.journal s (.getConfig layer keys))
      ∧ ∀ items, (s.getConfig layer keys).1 = .ok items →
        items = (answered (Call.journal s (.getConfig layer keys))).flatMap Message.pageItems := by
  by_cases hopen : s.phase.isOpen = true
  · rw [getConfig_of_isOpen hopen, journal_getConfig_of_isOpen hopen]
    exact readsPages_readAll layer _ { s with phase := .busy }
  · have hrefused : s.getConfig layer keys = (.error .notOpen, s) := if_neg hopen
    have hnothing : Call.journal s (.getConfig layer keys) = [] := if_neg hopen
    rw [hrefused, hnothing]
    exact ⟨0, .nil, nofun⟩

/-- **A read takes all pages that come, in their order.** Their items are what it answers, and each
is the page that was asked for exactly if they come in step with the polls. -/
theorem pages_of_getConfig (s : Session σ) (layer : Layer) (keys : List UInt32) :
    let journal := Call.journal s (.getConfig layer keys)
    let pages := (received journal).filter Message.isPage
    answered journal = pages
      ∧ (∀ items, (s.getConfig layer keys).1 = .ok items →
          items = pages.flatMap Message.pageItems)
      ∧ (PagesMatch journal ↔ InStep layer 0 pages) := by
  intro journal pages
  obtain ⟨next, hreads, hitems⟩ := readsPages_getConfig s layer keys
  have htaken : answered journal = pages := hreads.taken
  refine ⟨htaken, ?_, hreads.pagesMatch_iff⟩
  intro items hok
  rw [← htaken]
  exact hitems items hok

/-! ### A late page -/

/-- An item with one byte of value. -/
def someItem (value : UInt8) : Item := ⟨⟨0x20110021⟩, .one value⟩

/-- The first page of a layer, with this item alone. -/
def somePage (layer : Layer) (value : UInt8) : List UInt8 :=
  Frame.encode ⟨.cfgValget, 0x01 :: layer.code :: 0x00 :: 0x00 :: (someItem value).toBytes⟩

/-- A session whose receiver has 1 for the item, and 2 in flash. A page of flash that was asked for
earlier comes when nobody waits for it any more. -/
def ofLatePage : Session Script where
  name := ""
  options := { detect := false }
  link := {
    incoming := [⟨0, .data (somePage .flash 2)⟩]
    rules := [⟨.cfgValget, [[⟨0, .data (somePage .ram 1)⟩]]⟩] }

/-- The late page is taken for the one that was asked for. -/
theorem latePage_taken :
    ((performAll [.establish] ofLatePage).2.getConfig .ram [0x20110021]).1 = .ok [someItem 2]
      ∧ ¬PagesMatch (Call.journal (performAll [.establish] ofLatePage).2
          (.getConfig .ram [0x20110021])) := by
  obtain ⟨ready, hready⟩ : ∃ s, s = (performAll [.establish] ofLatePage).2 := ⟨_, rfl⟩
  obtain ⟨busy, hbusy⟩ : ∃ s : Session Script, s = { ready with phase := .busy } := ⟨_, rfl⟩
  obtain ⟨sent, hsent⟩ : ∃ s, s = (putPoll (pagePoll .ram 0 [0x20110021]) busy).2 := ⟨_, rfl⟩
  obtain ⟨m, hm⟩ : ∃ m : Message, m = ⟨.ubx, somePage .flash 2, 1⟩ := ⟨_, rfl⟩
  have hput : putPoll (pagePoll .ram 0 [0x20110021]) busy = (.ok (), sent) := by
    rw [hsent, hbusy, hready]
    rfl
  have hverdict : m.pageVerdict = .answer := by
    rw [hm]
    decide
  -- the late page was there first, so it is the first to be read
  obtain ⟨after, hr⟩ : ∃ s, sent.receive (sent.now + (pagePoll .ram 0 [0x20110021]).timeout) false
      = (.ok (some m), s) := by
    rw [hsent, hbusy, hready, hm]
    exact ⟨_, receive_of_arrived rfl rfl rfl rfl⟩
  have hpoll : exchange (pagePoll .ram 0 [0x20110021]) busy = (.ok ⟨m, false⟩, after) :=
    exchange_of_receive (attempts_pagePoll_ne_zero _ _ _) hput hr
      (by rw [classify_pagePoll, hverdict])
  have hdecode : Config.decode (m.payload.drop Config.Query.headSize) = .ok [someItem 2] := by
    have hsound : ∀ item ∈ [someItem 2], item.IsSound := List.forall_mem_singleton.mpr rfl
    rw [← Config.decode_flatMap_toBytes hsound, hm]
    rfl
  have hall : readAll .ram [[0x20110021]] busy = (.ok [someItem 2], after) := by
    unfold readAll
    rw [readPages_eq, hpoll]
    simp [hdecode, Config.Query.pageSize, readAll]
  have hchunks : Config.chunksOf Config.Query.pageSize [(0x20110021 : UInt32)]
      = [[0x20110021]] := by simp [Config.chunksOf_cons]
  have hopen : ready.phase.isOpen = true := by
    rw [hready]
    rfl
  rw [← hready, getConfig_of_isOpen hopen, journal_getConfig_of_isOpen hopen, hchunks, ← hbusy]
  refine ⟨by rw [hall], ?_⟩
  intro hmatch
  have hmem : .answered (pagePoll .ram 0 [0x20110021]) m
      ∈ readAllJournal .ram [[0x20110021]] busy := by
    rw [← mem_turns_iff, readAllJournal, readPagesJournal_of_ok hpoll, turns_append, turns_append,
      turns_exchangeJournal, hpoll]
    simp
  have hhead := hmatch _ _ hmem hverdict
  rw [hm] at hhead
  exact absurd hhead (by decide)

end Session
end GnssLink
