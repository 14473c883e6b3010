import GnssLink.Proofs.Session.Rounds
import GnssLink.Proofs.Stream.Layout
/-!
# GnssLink.Proofs.Session.Delivery

**What a session receives of a stream that is on its way.** Of all that a receiver sends only some
messages matter to a call. What these say (`Observation`) can be read off the stream as a whole
(`Observation.seen`), and what of it a session can still receive (`Session.Expects`) is changed
neither by reading nor by keeping other messages. As long as something is to come, and comes in
time, a wait receives a message (`Session.receive_of_expects`).

Nothing is said about how a link cuts the stream into reads. A byte is on its way until it is read
(`Coming`), and a read takes time only as long as the next byte is not due (`Delivers`).
-/

namespace GnssLink

open GnssLink.Stream (Demux Message Piece layout)

/-! ### Observations -/

/-- Something that messages may say. Their numbers do not matter, and garbage says nothing. -/
structure Observation (β : Type) where
  see : Message → Option β
  see_of_seq : ∀ (m : Message) (seq : UInt32), see { m with seq } = see m
  see_garbage : ∀ (data : List UInt8) (seq : UInt32), see ⟨.garbage, data, seq⟩ = none

namespace Observation

variable {β : Type} (o : Observation β)

/-- What a part of a stream says. -/
def seePiece : Piece → Option β
  | .frame protocol data => o.see ⟨protocol, data, 0⟩
  | .stray _ => none

/-- What a stream says. -/
def seen (stream : List UInt8) : List β := (layout stream).1.filterMap o.seePiece

@[simp] theorem seen_nil : o.seen [] = [] := by
  rw [seen, Stream.layout_nil]
  rfl

/-- What a stream says goes on where its first part ends. What that leaves over may become part of a
message. -/
theorem seen_append (x y : List UInt8) :
    o.seen (x ++ y) = o.seen x ++ o.seen ((layout x).2 ++ y) := by
  rw [seen, Stream.layout_append, List.filterMap_append]
  rfl

/-- A message counts for its parts. -/
theorem filterMap_seePiece_pieces (m : Message) :
    m.pieces.filterMap o.seePiece = (o.see m).toList := by
  unfold Message.pieces
  split
  · next hgarbage =>
    have hnone : o.see m = none := by
      rw [← o.see_garbage m.data m.seq, ← hgarbage]
    rw [hnone, List.filterMap_map]
    exact List.filterMap_eq_nil_iff.mpr fun _ _ => rfl
  · show [Piece.frame m.protocol m.data].filterMap o.seePiece = (o.see m).toList
    have hframe : o.seePiece (.frame m.protocol m.data) = o.see m := o.see_of_seq m 0
    cases hsee : o.see m with
    | none => rw [List.filterMap_cons_none (hframe.trans hsee)]; rfl
    | some b => rw [List.filterMap_cons_some (hframe.trans hsee)]; rfl

/-- What a stream says begins with what the next message says. -/
theorem seen_of_next? {d d' : Demux} {m : Message} (y : List UInt8) (h : d.next? = some (m, d')) :
    o.seen (d.buffer ++ y) = (o.see m).toList ++ o.seen (d'.buffer ++ y) := by
  rw [seen, Demux.layout_of_next? y h, List.filterMap_append, filterMap_seePiece_pieces]
  rfl

/-- A buffer without a message says nothing. -/
theorem seen_of_next?_eq_none {d : Demux} (h : d.next? = none) : o.seen d.buffer = [] := by
  rw [seen, Demux.layout_of_next?_eq_none h]
  rfl

end Observation

/-! ### Delivery -/

/-- A byte on its way, and the time before which it is delivered to whoever reads. -/
structure Coming where
  byte : UInt8
  due : Nat

/-- The bytes without their times. -/
def bytesOf (coming : List Coming) : List UInt8 := coming.map Coming.byte

@[simp] theorem bytesOf_append (x y : List Coming) : bytesOf (x ++ y) = bytesOf x ++ bytesOf y :=
  List.map_append

/-- A relation between the bytes that a link delivered, those on their way and the link itself is
kept by reading. A read takes some of the bytes that come next. It ends before the first of them is
due, or at once if it answers any. -/
def Delivers {σ : Type} [Link σ] (Serves : List UInt8 → List Coming → σ → Prop) : Prop :=
  ∀ {past : List UInt8} {coming : List Coming} {link : σ}, Serves past coming link →
    ∃ data rest link', coming = data ++ rest
      ∧ Link.read link = (.ok (bytesOf data), link')
      ∧ Serves (past ++ bytesOf data) rest link' ∧ Link.now link ≤ Link.now link'
      ∧ ∀ first ∈ coming.head?, Link.now link' < first.due
        ∨ (Link.now link' = Link.now link ∧ data ≠ [])

namespace Session

variable {σ : Type} [Link σ]

/-- The session at a later time: nobody closed or aborted it meanwhile. -/
structure Later (s s' : Session σ) : Prop where
  now : s.now ≤ s'.now
  options : s'.options = s.options
  phase : s'.phase = s.phase
  aborted : s'.aborted = s.aborted

theorem Later.refl (s : Session σ) : Later s s := ⟨Nat.le_refl _, rfl, rfl, rfl⟩

theorem Later.trans {s₁ s₂ s₃ : Session σ} (h : Later s₁ s₂) (h' : Later s₂ s₃) : Later s₁ s₃ :=
  ⟨Nat.le_trans h.now h'.now, h'.options.trans h.options, h'.phase.trans h.phase,
    h'.aborted.trans h.aborted⟩

theorem now_keep (s : Session σ) (m : Message) : (s.keep m).now = s.now := by
  unfold keep
  split <;> rfl

/-- Keeping a message takes no time. -/
theorem later_keep (s : Session σ) (m : Message) : Later s (s.keep m) := by
  refine ⟨Nat.le_of_eq (now_keep s m).symm, ?_, ?_, ?_⟩ <;> unfold keep <;> split <;> rfl

/-- The session can still receive what says `owed`, and all that has to come until then is due at
`limit` or before, which is no later than a wait of `timeout` that begins now would end. -/
structure Expects {β : Type} (o : Observation β) (Serves : List UInt8 → List Coming → σ → Prop)
    (timeout : Nat) (owed : List β) (limit : Nat) (past : List UInt8) (coming : List Coming)
    (s : Session σ) : Prop where
  serves : Serves past coming s.link
  read : ∃ gone, ∀ y, o.seen (past ++ y) = gone ++ o.seen (s.demux.buffer ++ y)
  owes : o.seen (s.demux.buffer ++ bytesOf coming) = owed
  due : ∀ x next y, coming = x ++ next :: y → o.seen (s.demux.buffer ++ bytesOf x) ≠ owed →
    next.due ≤ limit
  inTime : limit ≤ s.now + timeout
  active : s.aborted = false

variable {β : Type} {o : Observation β} {Serves : List UInt8 → List Coming → σ → Prop}
  {timeout limit deadline : Nat} {owed : List β} {past : List UInt8} {coming : List Coming}
  {s : Session σ}

namespace Expects

/-- Cutting off a message takes what it says. -/
theorem of_next? {m : Message} {demux : Demux}
    (h : Expects o Serves timeout owed limit past coming s)
    (hnext : s.demux.next? = some (m, demux)) :
    ∃ rest, owed = (o.see m).toList ++ rest
      ∧ Expects o Serves timeout rest limit past coming { s with demux } := by
  refine ⟨o.seen (demux.buffer ++ bytesOf coming), ?_, h.serves, ?_, rfl, ?_, h.inTime, h.active⟩
  · rw [← h.owes, o.seen_of_next? _ hnext]
  · obtain ⟨gone, hgone⟩ := h.read
    refine ⟨gone ++ (o.see m).toList, ?_⟩
    intro y
    rw [hgone, o.seen_of_next? y hnext, List.append_assoc]
  · intro x next y hsplit hmissing
    -- what completes the stream without the message completes it with the message in front
    refine h.due x next y hsplit ?_
    intro hdone
    refine hmissing ?_
    rw [← h.owes, o.seen_of_next? _ hnext, o.seen_of_next? _ hnext] at hdone
    exact List.append_cancel_left hdone

/-- Reading moves bytes into the buffer. -/
theorem of_read {link : σ} {data rest : List Coming}
    (h : Expects o Serves timeout owed limit past (data ++ rest) s)
    (hserves : Serves (past ++ bytesOf data) rest link)
    (hclock : Link.now s.link ≤ Link.now link) :
    Expects o Serves timeout owed limit (past ++ bytesOf data) rest
      { s with link, demux := s.demux.add (bytesOf data) } where
  serves := hserves
  read := by
    obtain ⟨gone, hgone⟩ := h.read
    refine ⟨gone, ?_⟩
    intro y
    rw [List.append_assoc, hgone, Demux.add, List.append_assoc]
  owes := by
    rw [← h.owes, Demux.add, bytesOf_append, List.append_assoc]
  due x next y hsplit hmissing := by
    refine h.due (data ++ x) next y (by rw [hsplit, List.append_assoc]) ?_
    rwa [bytesOf_append, ← List.append_assoc]
  inTime := Nat.le_trans h.inTime (Nat.add_le_add_right hclock timeout)
  active := h.active

/-- What is kept is not owed any more, so keeping changes nothing of what is. -/
theorem keep (h : Expects o Serves timeout owed limit past coming s) (m : Message) :
    Expects o Serves timeout owed limit past coming (s.keep m) := by
  unfold Session.keep
  split <;> exact ⟨h.serves, h.read, h.owes, h.due, h.inTime, h.active⟩

/-- Where nothing can be cut off, something still has to come, and it is due in time. -/
theorem of_next?_eq_none (h : Expects o Serves timeout owed limit past coming s) (howed : owed ≠ [])
    (hnext : s.demux.next? = none) : ∃ first ∈ coming.head?, first.due ≤ limit := by
  have hmissing : o.seen (s.demux.buffer ++ bytesOf []) ≠ owed := by
    show o.seen (s.demux.buffer ++ []) ≠ owed
    rw [List.append_nil, o.seen_of_next?_eq_none hnext]
    exact howed.symm
  cases coming with
  | nil => exact absurd h.owes hmissing
  | cons first rest => exact ⟨first, rfl, h.due [] first rest rfl hmissing⟩

/-- Where nothing is on its way that says anything, nothing is owed. -/
theorem of_quiet (hserves : Serves s.demux.buffer coming s.link) (hactive : s.aborted = false)
    (hquiet : o.seen (s.demux.buffer ++ bytesOf coming) = []) :
    Expects o Serves timeout [] s.now s.demux.buffer coming s := by
  refine ⟨hserves, ⟨[], fun y => rfl⟩, hquiet, ?_, Nat.le_add_right _ _, hactive⟩
  intro x next y hsplit hmissing
  rw [hsplit, bytesOf_append, ← List.append_assoc, o.seen_append] at hquiet
  exact absurd (List.append_eq_nil_iff.mp hquiet).1 hmissing

/-- What is sent in answer to a write is owed after all that is owed already. -/
theorem of_write {Serves' : List UInt8 → List Coming → σ → Prop} {coming' : List Coming} {link : σ}
    {b : β} (h : Expects o Serves timeout owed limit past coming s)
    (hserves : Serves' past coming' link)
    (hseen : o.seen (past ++ bytesOf coming') = o.seen (past ++ bytesOf coming) ++ [b])
    (hdue : ∀ x next y, coming' = x ++ next :: y →
      o.seen (past ++ bytesOf x) ≠ o.seen (past ++ bytesOf coming') →
      next.due ≤ Link.now link + timeout) :
    Expects o Serves' timeout (owed ++ [b]) (Link.now link + timeout) past coming'
      { s with link } := by
  obtain ⟨gone, hgone⟩ := h.read
  have howes : o.seen (s.demux.buffer ++ bytesOf coming') = owed ++ [b] := by
    rw [hgone, hgone, h.owes, List.append_assoc] at hseen
    exact List.append_cancel_left hseen
  refine ⟨hserves, ⟨gone, hgone⟩, howes, ?_, Nat.le_refl _, h.active⟩
  intro x next y hsplit hmissing
  refine hdue x next y hsplit ?_
  intro hdone
  refine hmissing ?_
  rw [hgone, hgone, howes] at hdone
  exact List.append_cancel_left hdone

end Expects

/-- **As long as something is owed, a wait until the limit or longer receives a message.** -/
theorem receive_of_expects {attempted : Bool} {res : Except SessionError (Option Message)}
    {s₁ : Session σ} (hdelivers : Delivers Serves)
    (hr : s.receive deadline attempted = (res, s₁))
    (h : Expects o Serves timeout owed limit past coming s) (howed : owed ≠ [])
    (hlimit : limit ≤ deadline) (htime : s.now < deadline) :
    ∃ m rest past' coming', res = .ok (some m) ∧ owed = (o.see m).toList ++ rest
      ∧ Expects o Serves timeout rest limit past' coming' s₁ ∧ s₁.now < deadline ∧ Later s s₁ := by
  -- every read keeps what is expected, and the deadline cannot pass before the next byte is due
  fun_induction receive s deadline attempted generalizing past coming with
  | case1 s attempted m demux hnext =>
    cases hr
    obtain ⟨rest, hrest, hexpects⟩ := h.of_next? hnext
    exact ⟨m, rest, past, coming, rfl, hrest, hexpects, htime, Nat.le_refl _, rfl, rfl, rfl⟩
  | case2 s attempted hnext hlate => exact absurd htime (Nat.not_lt.mpr hlate.2)
  | case3 s attempted hnext hwait hab => exact absurd (h.active ▸ hab) Bool.false_ne_true
  | case4 s attempted hnext hwait hab f link hread =>
    obtain ⟨_, _, _, _, hok, _⟩ := hdelivers h.serves
    rw [hread] at hok
    cases hok
  | case5 s attempted hnext hwait hab data link hread _ _ ih =>
    obtain ⟨data', rest, link', rfl, hok, hserves, hclock, hquick⟩ := hdelivers h.serves
    rw [hread] at hok
    cases hok
    -- the next byte is due before the deadline, so the read ends before it too
    have hnow : Link.now link < deadline := by
      obtain ⟨first, hfirst, hdue⟩ := h.of_next?_eq_none howed hnext
      rcases hquick first hfirst with hsoon | ⟨hsame, -⟩
      · omega
      · rw [hsame]
        exact htime
    obtain ⟨m, rest', past', coming', hsome, howed', hexpects, hlt, hlater⟩ :=
      ih hr (h.of_read hserves hclock) hnow
    exact ⟨m, rest', past', coming', hsome, howed', hexpects, hlt,
      Nat.le_trans hclock hlater.now, hlater.options, hlater.phase, hlater.aborted⟩

end Session
end GnssLink
