import GnssLink.Proofs.Session.Delivery
/-!
# GnssLink.Proofs.Session.Receiver

**Receivers that answer configuration messages.** A receiver sends one stream of bytes. Whatever
else it sends, the acknowledgements of configuration messages can be read off that stream (`acks`).
A `Receiver` is a link behind which each configuration frame is answered in the stream by one more
acknowledgement, in time. Nothing is said about how the link cuts the stream into reads.

Design points:

* The receiver's verdicts are laid down for the frames that will be written (`plan`), since no link
  delivers bytes for ever.
* The acknowledgements are what is seen of the stream (`ackObservation`). A session that awaits some
  (`Session.Awaits`) expects them, as it would expect anything else that is on its way.
-/

namespace GnssLink

open GnssLink.Stream (Demux Message Piece layout)

/-! ### Acknowledgements in a stream -/

/-- Whether a message accepts or rejects a configuration message. -/
def Stream.Message.ack? (m : Message) : Option Bool :=
  match m.acknowledgement? with
  | some ⟨accepted, id⟩ => if id = .cfgValset then some accepted else none
  | none => none

/-- Whether a part of a stream accepts or rejects a configuration message. -/
def Stream.Piece.ack? : Piece → Option Bool
  | frame protocol data => Message.ack? ⟨protocol, data, 0⟩
  | stray _ => none

/-- The acknowledgements of configuration messages in a stream. -/
def acks (stream : List UInt8) : List Bool := (layout stream).1.filterMap Piece.ack?

/-- An acknowledgement counts if it is one of a configuration message. -/
theorem ack?_eq_some_iff {m : Message} {accepted : Bool} :
    m.ack? = some accepted ↔ m.acknowledgement? = some ⟨accepted, .cfgValset⟩ := by
  unfold Message.ack?
  split
  · next a id h =>
    rw [h]
    split
    · next hid => simp [hid]
    · next hid => simp [hid]
  · next h => simp [h]

theorem ack?_eq_none {m : Message} (hyes : m.acknowledgement? ≠ some ⟨true, .cfgValset⟩)
    (hno : m.acknowledgement? ≠ some ⟨false, .cfgValset⟩) : m.ack? = none := by
  cases hack : m.ack? with
  | none => rfl
  | some accepted =>
    rw [ack?_eq_some_iff] at hack
    cases accepted with
    | true => exact absurd hack hyes
    | false => exact absurd hack hno

/-- Acknowledgements as something that messages say. -/
def ackObservation : Observation Bool where
  see := Message.ack?
  see_of_seq _ _ := rfl
  see_garbage data seq := by simp [Message.ack?, Message.acknowledgement?, Message.id?]

theorem acks_eq_seen (stream : List UInt8) : acks stream = ackObservation.seen stream := by
  have hpiece : Piece.ack? = ackObservation.seePiece := by
    funext piece
    cases piece <;> rfl
  rw [acks, hpiece]
  rfl

@[simp] theorem acks_nil : acks [] = [] := by
  rw [acks_eq_seen, Observation.seen_nil]

/-- The acknowledgements of a longer stream: what the first part leaves over may begin one. -/
theorem acks_append (x y : List UInt8) :
    acks (x ++ y) = acks x ++ acks ((layout x).2 ++ y) := by
  rw [acks_eq_seen, acks_eq_seen, acks_eq_seen, Observation.seen_append]

/-! ### Receivers -/

/-- Frames to be written, each with whether the receiver accepts it. -/
abbrev Plan := List (List UInt8 × Bool)

/-- A receiver that answers every configuration frame of a plan before `timeout` is over. It is
known by a relation that reading and writing keep: `Serves plan past coming link` says that `past`
was delivered, that `coming` is on its way, and that the frames of `plan` will be answered. -/
structure Receiver (σ : Type) [Link σ] (timeout : Nat) where
  /-- The states in which the receiver may be. -/
  Serves : Plan → List UInt8 → List Coming → σ → Prop
  /-- There is time to answer. -/
  timeout_pos : 0 < timeout
  /-- A read takes some of the bytes that come next. It ends before the first of them is due, or
  at once if it answers any. -/
  read : ∀ {plan : Plan} {past : List UInt8} {coming : List Coming} {link : σ},
    Serves plan past coming link → ∃ data rest link', coming = data ++ rest
      ∧ Link.read link = (.ok (bytesOf data), link')
      ∧ Serves plan (past ++ bytesOf data) rest link' ∧ Link.now link ≤ Link.now link'
      ∧ ∀ first ∈ coming.head?, Link.now link' < first.due
        ∨ (Link.now link' = Link.now link ∧ data ≠ [])
  /-- A frame written is answered once, after the frames before it, and all that has to come until
  then is due before the timeout is over. -/
  write : ∀ {frame : List UInt8} {accepted : Bool} {plan : Plan} {past : List UInt8}
    {coming : List Coming} {link : σ}, Serves ((frame, accepted) :: plan) past coming link →
    ∃ coming' link', Link.write frame link = (.ok (), link')
      ∧ Serves plan past coming' link' ∧ Link.now link ≤ Link.now link'
      ∧ acks (past ++ bytesOf coming') = acks (past ++ bytesOf coming) ++ [accepted]
      ∧ ∀ x next y, coming' = x ++ next :: y →
        acks (past ++ bytesOf x) ≠ acks (past ++ bytesOf coming') →
        next.due ≤ Link.now link' + timeout

namespace Session

variable {σ : Type} [Link σ] {timeout : Nat}

/-- The session can read the acknowledgements `owed`, and all that has to come until then is due at
`limit` or before, which is no later than a wait that begins now would end. -/
structure Awaits (r : Receiver σ timeout) (plan : Plan) (owed : List Bool) (limit : Nat)
    (past : List UInt8) (coming : List Coming) (s : Session σ) : Prop where
  serves : r.Serves plan past coming s.link
  read : ∃ gone, ∀ y, acks (past ++ y) = gone ++ acks (s.demux.buffer ++ y)
  owes : acks (s.demux.buffer ++ bytesOf coming) = owed
  due : ∀ x next y, coming = x ++ next :: y → acks (s.demux.buffer ++ bytesOf x) ≠ owed →
    next.due ≤ limit
  patience : s.options.ackTimeout = timeout
  inTime : limit ≤ s.now + timeout
  active : s.aborted = false

variable {r : Receiver σ timeout} {plan : Plan} {owed : List Bool} {limit deadline : Nat}
  {past : List UInt8} {coming : List Coming} {s : Session σ}

namespace Awaits

/-- Waiting for acknowledgements is waiting for what can be observed of the stream. -/
theorem expects (h : Awaits r plan owed limit past coming s) :
    Expects ackObservation (r.Serves plan) timeout owed limit past coming s where
  serves := h.serves
  read := by
    simp only [← acks_eq_seen]
    exact h.read
  owes := by
    rw [← acks_eq_seen]
    exact h.owes
  due := by
    simp only [← acks_eq_seen]
    exact h.due
  inTime := h.inTime
  active := h.active

theorem of_expects (h : Expects ackObservation (r.Serves plan) timeout owed limit past coming s)
    (hpatience : s.options.ackTimeout = timeout) : Awaits r plan owed limit past coming s where
  serves := h.serves
  read := by
    simp only [acks_eq_seen]
    exact h.read
  owes := by
    rw [acks_eq_seen]
    exact h.owes
  due := by
    simp only [acks_eq_seen]
    exact h.due
  patience := hpatience
  inTime := h.inTime
  active := h.active

theorem keep (h : Awaits r plan owed limit past coming s) (m : Message) :
    Awaits r plan owed limit past coming (s.keep m) := by
  unfold Session.keep
  split <;> exact ⟨h.serves, h.read, h.owes, h.due, h.patience, h.inTime, h.active⟩

theorem inPhase (h : Awaits r plan owed limit past coming s) (phase : Phase) :
    Awaits r plan owed limit past coming { s with phase } :=
  ⟨h.serves, h.read, h.owes, h.due, h.patience, h.inTime, h.active⟩

/-- What is due at some time is due at any later one. -/
theorem extend (h : Awaits r plan owed limit past coming s) :
    Awaits r plan owed (s.now + timeout) past coming s where
  serves := h.serves
  read := h.read
  owes := h.owes
  due x next y hsplit hmissing := Nat.le_trans (h.due x next y hsplit hmissing) h.inTime
  patience := h.patience
  inTime := Nat.le_refl _
  active := h.active

end Awaits

/-! ### Waiting -/

/-- As long as an acknowledgement is owed, a wait until the limit or longer receives something. -/
theorem receive_of_awaits {attempted : Bool} {res : Except SessionError (Option Message)}
    {s₁ : Session σ} (hr : s.receive deadline attempted = (res, s₁))
    (h : Awaits r plan owed limit past coming s) (howed : owed ≠ []) (hlimit : limit ≤ deadline)
    (htime : s.now < deadline) :
    ∃ m rest past' coming', res = .ok (some m) ∧ owed = m.ack?.toList ++ rest
      ∧ Awaits r plan rest limit past' coming' s₁ ∧ s₁.now < deadline ∧ Later s s₁ := by
  obtain ⟨m, rest, past', coming', hsome, howed', hexpects, hnow, hlater⟩ :=
    receive_of_expects r.read hr h.expects howed hlimit htime
  have hpatience : s₁.options.ackTimeout = timeout := by rw [hlater.options, h.patience]
  exact ⟨m, rest, past', coming', hsome, howed', .of_expects hexpects hpatience, hnow, hlater⟩

/-- What a wait for `expected` acknowledgements answers, `acked` of which it has, if these are the
ones it can read; and the ones that it leaves. -/
def charge (expected : Nat) : Nat → List Bool → Except SessionError Unit × List Bool
  | acked, [] =>
    (if expected ≤ acked then .ok () else .error (.configTimeout acked expected), [])
  | acked, accepted :: rest =>
    if expected ≤ acked then (.ok (), accepted :: rest)
    else if accepted then charge expected (acked + 1) rest
    else (.error (.configRejected (acked + 1) expected), rest)

/-- A wait that has enough takes nothing more. -/
theorem charge_of_le {expected acked : Nat} (h : expected ≤ acked) (owed : List Bool) :
    charge expected acked owed = (.ok (), owed) := by
  cases owed with
  | nil => rw [charge, if_pos h]
  | cons accepted rest => rw [charge, if_pos h]

/-- **A wait takes the acknowledgements that it can read in their order**, whichever write they
answer. -/
theorem awaitAcks_of_awaits {expected acked : Nat} (h : Awaits r plan owed limit past coming s)
    (henough : expected ≤ acked + owed.length) (hlimit : limit ≤ deadline)
    (htime : s.now < deadline) :
    ∃ past' coming' s', awaitAcks expected acked deadline s = ((charge expected acked owed).1, s')
      ∧ Awaits r plan (charge expected acked owed).2 limit past' coming' s' ∧ Later s s' := by
  have hreceive {acked deadline : Nat} {owed : List Bool} {past : List UInt8}
      {coming : List Coming} {s s₁ : Session σ} {res : Except SessionError (Option Message)}
      (hr : s.receive deadline false = (res, s₁))
      (h : Awaits r plan owed limit past coming s) (hmore : ¬expected ≤ acked)
      (henough : expected ≤ acked + owed.length) (hlimit : limit ≤ deadline)
      (htime : s.now < deadline) :=
    receive_of_awaits hr h (by rintro rfl; exact hmore henough) hlimit htime
  -- no round of the wait comes up empty, so what is owed is charged one by one as it goes
  fun_induction awaitAcks expected acked deadline s generalizing owed past coming with
  | case1 acked deadline s hdone =>
    rw [charge_of_le hdone]
    exact ⟨past, coming, s, rfl, h, .refl s⟩
  | case2 acked deadline s hmore hlate => omega
  | case3 acked deadline s hmore _ e s₁ hr =>
    obtain ⟨_, _, _, _, hsome, _⟩ := hreceive hr h hmore henough hlimit htime
    cases hsome
  | case4 acked deadline s hmore _ s₁ hr =>
    obtain ⟨_, _, _, _, hsome, _⟩ := hreceive hr h hmore henough hlimit htime
    cases hsome
  | case5 acked deadline s hmore _ m s₁ hr _ hyes ih =>
    obtain ⟨_, rest, past₁, coming₁, hsome, rfl, hrest, -, hlater⟩ :=
      hreceive hr h hmore henough hlimit htime
    cases hsome
    rw [ack?_eq_some_iff.mpr hyes] at henough ⊢
    -- the wait starts anew, so the next acknowledgement has the whole timeout again
    have hrenewed : s₁.now + timeout = s₁.now + s₁.options.ackTimeout := by
      rw [hrest.patience]
    have hpos := r.timeout_pos
    simp only [Option.toList_some, List.singleton_append, List.length_cons] at henough ⊢
    rw [charge, if_neg hmore, if_pos rfl]
    obtain ⟨past₂, coming₂, s₂, hacks, hleft, hlater'⟩ :=
      ih hrest (by omega) (hrenewed ▸ hrest.inTime) (by omega)
    exact ⟨past₂, coming₂, s₂, hacks, hleft, hlater.trans hlater'⟩
  | case6 acked deadline s hmore _ m s₁ hr _ hyes hno =>
    obtain ⟨_, rest, past₁, coming₁, hsome, rfl, hrest, -, hlater⟩ :=
      hreceive hr h hmore henough hlimit htime
    cases hsome
    rw [ack?_eq_some_iff.mpr hno]
    simp only [Option.toList_some, List.singleton_append]
    rw [charge, if_neg hmore, if_neg Bool.false_ne_true]
    exact ⟨past₁, coming₁, s₁, rfl, hrest, hlater⟩
  | case7 acked deadline s hmore _ m s₁ hr _ hyes hno ih =>
    obtain ⟨_, rest, past₁, coming₁, hsome, rfl, hrest, hnow, hlater⟩ :=
      hreceive hr h hmore henough hlimit htime
    cases hsome
    rw [ack?_eq_none hyes hno] at henough ⊢
    have hkept := later_keep s₁ m
    obtain ⟨past₂, coming₂, s₂, hacks, hleft, hlater'⟩ :=
      ih (hrest.keep m) henough hlimit (by rwa [now_keep])
    exact ⟨past₂, coming₂, s₂, hacks, hleft, (hlater.trans hkept).trans hlater'⟩

/-! ### Writing -/

/-- A frame written adds its acknowledgement to those owed. -/
theorem put_of_awaits {frame : List UInt8} {accepted : Bool}
    (h : Awaits r ((frame, accepted) :: plan) owed limit past coming s) :
    ∃ coming' s', s.put frame = (.ok (), s')
      ∧ Awaits r plan (owed ++ [accepted]) (s'.now + timeout) past coming' s' ∧ Later s s' := by
  obtain ⟨coming', link', hwrite, hserves, hclock, hacks, hdue⟩ := r.write h.serves
  simp only [acks_eq_seen] at hacks hdue
  exact ⟨coming', { s with link := link' }, by rw [put, hwrite],
    .of_expects (h.expects.of_write hserves hacks hdue) h.patience, hclock, rfl, rfl, rfl⟩

/-- Frames written one after the other owe their acknowledgements in this order. -/
theorem putAll_of_awaits {frames : List (List UInt8)} {own : List Bool}
    (hown : own.length = frames.length)
    (h : Awaits r (frames.zip own ++ plan) owed limit past coming s) :
    ∃ coming' s', putAll frames s = (.ok (), s')
      ∧ Awaits r plan (owed ++ own) (s'.now + timeout) past coming' s' ∧ Later s s' := by
  induction frames generalizing own owed limit coming s with
  | nil =>
    obtain rfl := List.length_eq_zero_iff.mp hown
    rw [List.append_nil]
    exact ⟨coming, s, rfl, h.extend, .refl s⟩
  | cons frame rest ih =>
    cases own with
    | nil => cases hown
    | cons accepted own =>
      obtain ⟨coming₁, s₁, hput, hawaits, hlater⟩ := put_of_awaits h
      obtain ⟨coming₂, s₂, hputAll, hawaits', hlater'⟩ := ih (Nat.succ.inj hown) hawaits
      refine ⟨coming₂, s₂, by rw [putAll, hput, Outcome.andThen_ok, hputAll], ?_,
        hlater.trans hlater'⟩
      rwa [List.append_assoc] at hawaits'

end Session
end GnssLink
