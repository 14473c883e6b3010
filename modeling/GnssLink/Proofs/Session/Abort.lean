import GnssLink.Proofs.Session.Lifecycle
import GnssLink.Proofs.Session.Pages
import GnssLink.Proofs.Session.Receiver
/-!
# GnssLink.Proofs.Session.Abort

**What calls answer after the user gave up** (`Session.halted_of_isBlocking`). An aborted session
reads nothing. But it may hold messages, those kept for later and those that its buffer makes up,
and a call goes on as long as these last. If they settle what it answers it answers that; only when
they run out it is aborted.

What some messages make of a call is computed from these messages alone (`Foregone`). A part of an
operation in an aborted session follows them, writes what it has to write on the way, and ends there
or with a write that fails (`Session.Halts`).
-/

namespace GnssLink

open GnssLink.Config (Item Layer WriteMessage)
open GnssLink.Stream (Demux Message)

/-! ### What messages settle -/

/-- What some messages make of an operation, and the messages that it leaves; `none` if it takes
more messages than these. -/
abbrev Foregone (α : Type) := Option (Except SessionError α × List Message)

namespace Foregone

variable {α β : Type}

/-- Goes on after a success, with the messages that are left. -/
def andThen : Foregone α → (α → List Message → Foregone β) → Foregone β
  | none, _ => none
  | some (.error e, rest), _ => some (.error e, rest)
  | some (.ok a, rest), next => next a rest

/-- Does something with a success. -/
def thenOk (settled : Foregone α) (g : α → β) : Foregone β :=
  settled.andThen fun a rest => some (.ok (g a), rest)

theorem andThen_ok (settled : Foregone α) :
    settled.andThen (fun a rest => some (.ok a, rest)) = settled := by
  rcases settled with _ | ⟨e | a, rest⟩ <;> rfl

end Foregone

/-- The first of some messages that has to do with a poll. -/
def Poll.answerIn (poll : Poll) : List Message → Foregone Answer
  | [] => none
  | m :: rest =>
    match poll.classify m with
    | .answer => some (.ok ⟨m, false⟩, rest)
    | .refusal => some (.ok ⟨m, true⟩, rest)
    | .unrelated => poll.answerIn rest

/-- The wait for `expected` acknowledgements among some messages, some having come before. -/
def acksIn (expected : Nat) : Nat → List Message → Foregone Unit
  | acked, [] => if expected ≤ acked then some (.ok (), []) else none
  | acked, m :: rest =>
    if expected ≤ acked then some (.ok (), m :: rest)
    else
      match m.ack? with
      | some true => acksIn expected (acked + 1) rest
      | some false => some (.error (.configRejected (acked + 1) expected), rest)
      | none => acksIn expected acked rest

/-- The pages among some messages, from a position on. -/
def pagesIn : UInt16 → List Message → Foregone (List Item)
  | _, [] => none
  | position, m :: rest =>
    match m.pageVerdict with
    | .unrelated => pagesIn position rest
    | .refusal => some (if position = 0 then .error (.configRejected 1 1) else .ok [], rest)
    | .answer =>
      match Config.decode (m.payload.drop Config.Query.headSize) with
      | .error e => some (.error (.codec e), rest)
      | .ok items =>
        if items.length < Config.Query.pageSize then some (.ok items, rest)
        else (pagesIn (Session.nextPosition position) rest).thenOk (items ++ ·)

/-- The pages for several lists of keys among some messages. -/
def allPagesIn : Nat → List Message → Foregone (List Item)
  | 0, held => some (.ok [], held)
  | n + 1, held =>
    (pagesIn 0 held).andThen fun items rest => (allPagesIn n rest).thenOk (items ++ ·)

/-- A read of pages is an exchange for each of them. -/
theorem pagesIn_eq (layer : Layer) (keys : List UInt32) (position : UInt16) (held : List Message) :
    pagesIn position held =
      ((Session.pagePoll layer position keys).answerIn held).andThen fun answer rest =>
        if answer.refused then
          some (if position = 0 then .error (.configRejected 1 1) else .ok [], rest)
        else
          match Config.decode (answer.message.payload.drop Config.Query.headSize) with
          | .error e => some (.error (.codec e), rest)
          | .ok items =>
            if items.length < Config.Query.pageSize then some (.ok items, rest)
            else (pagesIn (Session.nextPosition position) rest).thenOk (items ++ ·) := by
  induction held with
  | nil => rfl
  | cons m rest ih =>
    rw [pagesIn, Poll.answerIn, Session.classify_pagePoll]
    cases m.pageVerdict with
    | answer => rfl
    | refusal => rfl
    | unrelated => exact ih

/-- The complete messages in the buffer of a session. -/
def Session.held {σ : Type} (s : Session σ) : List Message := s.demux.drain.1

namespace Call

/-- Whether the call waits for messages. A poll does if its attempts can be counted; after the
greatest number of retries it makes none. -/
def IsBlocking : Call → Prop
  | nextMessage _ => True
  | poll p => p.retries + 1 < UInt64.size
  | sendBatch batch => batch ≠ []
  | getConfig _ keys => keys ≠ []
  | _ => False

/-- The first fault of the link during the call. -/
def fault? {σ : Type} [Link σ] (s : Session σ) (call : Call) : Option Fault :=
  (call.uses s).findSome? Use.fault?

/-- What the call answers if the messages that the session holds are enough. -/
def foregone? {σ : Type} (s : Session σ) : Call → Option Reply
  | nextMessage _ => (s.pending ++ s.held).head?.map fun m => .message (.ok (some m))
  | poll p => (p.answerIn s.held).map fun settled => .answer settled.1
  | sendBatch batch => (acksIn batch.length 0 s.held).map fun settled => .done settled.1
  | getConfig _ keys =>
    (allPagesIn (Config.chunksOf Config.Query.pageSize keys).length s.held).map
      fun settled => .items settled.1
  | _ => none

end Call

/-- Whether the error is what the messages of the receiver say. -/
def SessionError.isReported : SessionError → Bool
  | configRejected _ _ | codec _ => true
  | _ => false

namespace Session

/-! ### Aborted sessions -/

section Aborted

variable {σ : Type} {s : Session σ} {held : List Message}

/-- The session is aborted and holds these messages. -/
structure Holds (held : List Message) (s : Session σ) : Prop where
  aborted : s.aborted = true
  held : s.held = held

/-- Keeping a message does not touch what is still in the buffer. -/
theorem Holds.keep (h : Holds held s) (m : Message) : Holds held (s.keep m) := by
  unfold Session.keep
  split <;> exact ⟨h.aborted, h.held⟩

theorem link_keep (s : Session σ) (m : Message) : (s.keep m).link = s.link := by
  unfold keep
  split <;> rfl

variable [Link σ]

/-- The messages that are held are received one after the other, without the link. -/
theorem receive_of_holds_cons {m : Message} {rest : List Message} (h : Holds (m :: rest) s)
    (deadline : Nat) (attempted : Bool) :
    ∃ s', s.receive deadline attempted = (.ok (some m), s') ∧ Holds rest s' ∧ s'.link = s.link := by
  have hheld : s.demux.drain.1 = m :: rest := h.held
  rw [receive_eq]
  cases hnext : s.demux.next? with
  | none =>
    rw [Demux.drain_of_next?_eq_none hnext] at hheld
    cases hheld
  | some found =>
    obtain ⟨first, demux⟩ := found
    rw [Demux.drain_of_next? hnext] at hheld
    cases hheld
    exact ⟨_, rfl, ⟨h.aborted, rfl⟩, rfl⟩

/-- Where nothing is held nothing is waited for. -/
theorem receive_of_holds_nil (h : Holds [] s) (deadline : Nat) :
    s.receive deadline false = (.error .aborted, s) := by
  have hheld : s.demux.drain.1 = [] := h.held
  rw [receive_eq]
  cases hnext : s.demux.next? with
  | some found =>
    rw [Demux.drain_of_next? hnext] at hheld
    cases hheld
  | none =>
    dsimp only
    rw [if_neg (by simp), if_pos h.aborted]

end Aborted

variable {σ : Type} {s s₁ : Session (Logged σ)} {held : List Message}

/-- From one session to the other some frames were written, and nothing else was done. -/
def Wrote (s s' : Session (Logged σ)) : Prop :=
  ∃ frames : List (List UInt8), s'.link.uses = s.link.uses ++ frames.map (.write · (.ok ()))

namespace Wrote

theorem of_eq (h : s₁.link.uses = s.link.uses) : Wrote s s₁ := ⟨[], by simp [h]⟩

theorem trans {s₂ : Session (Logged σ)} (h : Wrote s s₁) (hmore : Wrote s₁ s₂) : Wrote s s₂ := by
  obtain ⟨frames, hframes⟩ := h
  obtain ⟨more, hmore⟩ := hmore
  exact ⟨frames ++ more, by rw [hmore, hframes, List.map_append, List.append_assoc]⟩

end Wrote

/-- How a part of an operation ends in an aborted session: as is settled by what it holds, aborted
if nothing is, or with a write that fails. -/
inductive Halts {α : Type} (s : Session (Logged σ)) (settled : Foregone α) :
    Outcome (Logged σ) α → Prop where
  | settled {r : Except SessionError α} {rest : List Message} {s' : Session (Logged σ)}
      (eq : settled = some (r, rest)) (reported : ∀ e, r = .error e → e.isReported = true)
      (wrote : Wrote s s') (holds : Holds rest s') : Halts s settled (r, s')
  | aborted {s' : Session (Logged σ)} (eq : settled = none) (wrote : Wrote s s') :
      Halts s settled (.error .aborted, s')
  | fault {f : Fault} {data : List UInt8} {s₁ s' : Session (Logged σ)} (wrote : Wrote s s₁)
      (last : s'.link.uses = s₁.link.uses ++ [.write data (.error f)]) :
      Halts s settled (.error (.fault f), s')

namespace Halts

variable {α β : Type} {settled : Foregone α}

theorem ok {a : α} {rest : List Message} {s' : Session (Logged σ)} (wrote : Wrote s s')
    (holds : Holds rest s') : Halts s (some (.ok a, rest)) (.ok a, s') :=
  .settled rfl nofun wrote holds

theorem after {outcome : Outcome (Logged σ) α} (hwrote : Wrote s s₁)
    (h : Halts s₁ settled outcome) : Halts s settled outcome := by
  cases h with
  | settled eq reported wrote holds => exact .settled eq reported (hwrote.trans wrote) holds
  | aborted eq wrote => exact .aborted eq (hwrote.trans wrote)
  | fault wrote last => exact .fault (hwrote.trans wrote) last

/-- What follows a success. -/
theorem thenNext {a : α} {follow : α → List Message → Foregone β} {outcome : Outcome (Logged σ) β}
    (h : Halts s settled (.ok a, s₁))
    (hnext : ∀ rest, Holds rest s₁ → Halts s₁ (follow a rest) outcome) :
    Halts s (settled.andThen follow) outcome := by
  cases h with
  | settled eq _ wrote holds =>
    subst eq
    exact (hnext _ holds).after wrote

/-- An error means the same whatever would have followed. -/
theorem thenError {e : SessionError} {follow : α → List Message → Foregone β}
    (h : Halts s settled ((.error e, s₁) : Outcome (Logged σ) α)) :
    Halts s (settled.andThen follow) ((.error e, s₁) : Outcome (Logged σ) β) := by
  cases h with
  | settled eq reported wrote holds =>
    subst eq
    refine .settled rfl ?_ wrote holds
    rintro _ ⟨⟩
    exact reported e rfl
  | aborted eq wrote =>
    subst eq
    exact .aborted rfl wrote
  | fault wrote last => exact .fault wrote last

theorem andThen {outcome : Outcome (Logged σ) α}
    {next : α → Session (Logged σ) → Outcome (Logged σ) β}
    {follow : α → List Message → Foregone β} (h : Halts s settled outcome)
    (hnext : ∀ a rest s', Holds rest s' → Halts s' (follow a rest) (next a s')) :
    Halts s (settled.andThen follow) (outcome.andThen next) := by
  obtain ⟨r, s₁⟩ := outcome
  cases r with
  | ok a => exact h.thenNext fun rest h₁ => hnext a rest s₁ h₁
  | error e => exact h.thenError

/-- What follows something that takes no messages. -/
theorem andThenOk {a : α} {outcome : Outcome (Logged σ) α}
    {next : α → Session (Logged σ) → Outcome (Logged σ) β} {follow : Foregone β}
    (h : Halts s (some (.ok a, held)) outcome)
    (hnext : ∀ s', Holds held s' → Halts s' follow (next a s')) :
    Halts s follow (outcome.andThen next) := by
  cases h with
  | settled eq _ wrote holds =>
    cases eq
    exact (hnext _ holds).after wrote
  | aborted eq => cases eq
  | fault wrote last => exact .fault wrote last

/-- What follows a wait, which has a result if one is settled. -/
theorem andThenSome {outcome : Outcome (Logged σ) (Option α)}
    {next : Option α → Session (Logged σ) → Outcome (Logged σ) β}
    {follow : α → List Message → Foregone β} (h : Halts s (settled.thenOk some) outcome)
    (hnext : ∀ a rest s', Holds rest s' → Halts s' (follow a rest) (next (some a) s')) :
    Halts s (settled.andThen follow) (outcome.andThen next) := by
  -- what is settled has a result, so the case without one may be followed by anything
  have hsame : (settled.thenOk some).andThen (fun a rest => a.elim none fun a => follow a rest)
      = settled.andThen follow := by
    rcases settled with _ | ⟨e | a, rest⟩ <;> rfl
  obtain ⟨r, s₁⟩ := outcome
  rw [← hsame]
  rcases r with e | _ | a
  · exact h.thenError
  · cases h with
    | settled eq => rcases settled with _ | ⟨_ | _, _⟩ <;> cases eq
  · exact h.thenNext fun rest h₁ => hnext a rest s₁ h₁

theorem thenOk {outcome : Outcome (Logged σ) α} (h : Halts s settled outcome) (g : α → β) :
    Halts s (settled.thenOk g) (outcome.andThen fun a s => (.ok (g a), s)) :=
  h.andThen fun _ _ _ holds => .ok (.of_eq rfl) holds

end Halts

variable [Link σ]

/-! ### Operations -/

/-- A write takes no message. It is the one thing that can still fail. -/
theorem halts_put (h : Holds held s) (data : List UInt8) :
    Halts s (some (.ok (), held)) (s.put data) := by
  unfold put
  split
  · next hwrite =>
    obtain ⟨-, huses⟩ := Logged.eq_of_enter hwrite
    exact .ok ⟨[data], huses⟩ ⟨h.aborted, h.held⟩
  · next hwrite =>
    obtain ⟨-, huses⟩ := Logged.eq_of_enter hwrite
    exact .fault (.of_eq rfl) huses

theorem halts_putAll (h : Holds held s) (frames : List (List UInt8)) :
    Halts s (some (.ok (), held)) (putAll frames s) := by
  induction frames generalizing s with
  | nil => exact .ok (.of_eq rfl) h
  | cons data rest ih =>
    exact (halts_put h data).andThenOk fun _ h₁ => ih h₁

/-- A wait goes through what is held and stops at the first message for the poll. The clock stands
still meanwhile, so it cannot run out of time instead. -/
theorem halts_awaitAnswer {poll : Poll} {deadline : Nat} (h : Holds held s)
    (htime : s.now ≤ deadline) :
    Halts s ((poll.answerIn held).thenOk some) (awaitAnswer poll deadline s) := by
  -- by what is held: each round takes one message, and the round that finds none is aborted
  induction held generalizing s with
  | nil =>
    rw [awaitAnswer_eq, if_neg (Nat.not_lt.mpr htime), receive_of_holds_nil h]
    exact .aborted rfl (.of_eq rfl)
  | cons m rest ih =>
    obtain ⟨s₁, hr, hrest, hlink⟩ := receive_of_holds_cons h deadline false
    have hwrote : Wrote s s₁ := .of_eq (by rw [hlink])
    rw [awaitAnswer_eq, if_neg (Nat.not_lt.mpr htime), hr, Poll.answerIn]
    dsimp only
    cases poll.classify m with
    | answer => exact .ok hwrote hrest
    | refusal => exact .ok hwrote hrest
    | unrelated =>
      have hkept : (s₁.keep m).link = s.link := (link_keep s₁ m).trans hlink
      have hnow : (s₁.keep m).now ≤ deadline := by
        rw [now, hkept]
        exact htime
      exact (ih (hrest.keep m) hnow).after (.of_eq (by rw [hkept]))

theorem halts_putPoll (h : Holds held s) (poll : Poll) :
    Halts s (some (.ok (), held)) (putPoll poll s) := by
  unfold putPoll
  split
  · exact .ok (.of_eq rfl) h
  · exact halts_put h poll.frame

/-- The first attempt is the only one: it ends with what is held, or else it is aborted. -/
theorem halts_exchange (h : Holds held s) {poll : Poll} (hsome : poll.attempts ≠ 0) :
    Halts s (poll.answerIn held) (exchange poll s) := by
  obtain ⟨more, hmore⟩ := Nat.exists_eq_succ_of_ne_zero hsome
  have htry : Halts s ((poll.answerIn held).thenOk some) (tryPoll poll poll.attempts s) := by
    rw [hmore]
    refine (halts_putPoll h poll).andThenOk ?_
    intro s₁ h₁
    exact (halts_awaitAnswer h₁ (Nat.le_add_right _ _)).andThenSome fun _ _ _ h₂ =>
      .ok (.of_eq rfl) h₂
  rw [← (poll.answerIn held).andThen_ok]
  exact htry.andThenSome fun _ _ _ h₁ => .ok (.of_eq rfl) h₁

/-- A wait for acknowledgements stops at the one that decides it, if it is held. -/
theorem halts_awaitAcks {expected acked deadline : Nat} (h : Holds held s)
    (htime : s.now ≤ deadline) :
    Halts s (acksIn expected acked held) (awaitAcks expected acked deadline s) := by
  induction held generalizing acked deadline s with
  | nil =>
    rw [awaitAcks_eq, acksIn]
    split
    · exact .ok (.of_eq rfl) h
    · rw [if_neg (Nat.not_lt.mpr htime), receive_of_holds_nil h]
      exact .aborted rfl (.of_eq rfl)
  | cons m rest ih =>
    rw [awaitAcks_eq, acksIn]
    split
    · exact .ok (.of_eq rfl) h
    · obtain ⟨s₁, hr, hrest, hlink⟩ := receive_of_holds_cons h deadline false
      have hwrote : Wrote s s₁ := .of_eq (by rw [hlink])
      rw [if_neg (Nat.not_lt.mpr htime), hr]
      dsimp only
      by_cases hyes : m.acknowledgement? = some ⟨true, .cfgValset⟩
      · rw [if_pos hyes, ack?_eq_some_iff.mpr hyes]
        exact (ih hrest (Nat.le_add_right _ _)).after hwrote
      · rw [if_neg hyes]
        by_cases hno : m.acknowledgement? = some ⟨false, .cfgValset⟩
        · rw [if_pos hno, ack?_eq_some_iff.mpr hno]
          refine .settled rfl ?_ hwrote hrest
          rintro _ ⟨⟩
          rfl
        · have hkept : (s₁.keep m).link = s.link := (link_keep s₁ m).trans hlink
          have hnow : (s₁.keep m).now ≤ deadline := by
            rw [now, hkept]
            exact htime
          rw [if_neg hno, ack?_eq_none hyes hno]
          exact (ih (hrest.keep m) hnow).after (.of_eq (by rw [hkept]))

theorem halts_applyBatch (h : Holds held s) (batch : List WriteMessage) :
    Halts s (acksIn batch.length 0 held) (applyBatch batch s) :=
  (halts_putAll h _).andThenOk fun _ h₁ => halts_awaitAcks h₁ (Nat.le_add_right _ _)

/-- A read of pages goes on from page to page as long as they are held. -/
theorem halts_readPages (layer : Layer) (keys : List UInt32) {position : UInt16}
    (h : Holds held s) :
    Halts s (pagesIn position held) (readPages layer keys position s) := by
  have hpage {position : UInt16} {held : List Message} {s s₁ : Session (Logged σ)}
      {r : Except SessionError Answer} (h : Holds held s)
      (hpoll : exchange (pagePoll layer position keys) s = (r, s₁)) :
      Halts s ((pagePoll layer position keys).answerIn held) (r, s₁) := by
    rw [← hpoll]
    exact halts_exchange h (attempts_pagePoll_ne_zero _ _ _)
  fun_induction readPages layer keys position s generalizing held with
  | case1 position s e s₁ hpoll =>
    rw [pagesIn_eq layer keys]
    exact (hpage h hpoll).thenError
  | case2 s answer s₁ hrefused hpoll =>
    rw [pagesIn_eq layer keys]
    refine (hpage h hpoll).thenNext fun rest h₁ => ?_
    rw [if_pos hrefused]
    refine .settled rfl ?_ (.of_eq rfl) h₁
    rintro _ ⟨⟩
    rfl
  | case3 position s answer s₁ hpoll hrefused hlater =>
    rw [pagesIn_eq layer keys]
    refine (hpage h hpoll).thenNext fun rest h₁ => ?_
    rw [if_pos hrefused, if_neg hlater]
    exact .ok (.of_eq rfl) h₁
  | case4 position s answer s₁ hpoll hgiven e hdecode =>
    rw [pagesIn_eq layer keys]
    refine (hpage h hpoll).thenNext fun rest h₁ => ?_
    rw [if_neg hgiven, hdecode]
    refine .settled rfl ?_ (.of_eq rfl) h₁
    rintro _ ⟨⟩
    rfl
  | case5 position s answer s₁ hpoll hgiven items hdecode hlast =>
    rw [pagesIn_eq layer keys]
    refine (hpage h hpoll).thenNext fun rest h₁ => ?_
    rw [if_neg hgiven, hdecode]
    dsimp only
    rw [if_pos hlast]
    exact .ok (.of_eq rfl) h₁
  | case6 position s answer s₁ hpoll hgiven items hdecode hmore _ ih =>
    rw [pagesIn_eq layer keys]
    refine (hpage h hpoll).thenNext fun rest h₁ => ?_
    rw [if_neg hgiven, hdecode]
    dsimp only
    rw [if_neg hmore]
    exact (ih h₁).thenOk _

theorem halts_readAll (layer : Layer) (lists : List (List UInt32)) (h : Holds held s) :
    Halts s (allPagesIn lists.length held) (readAll layer lists s) := by
  induction lists generalizing held s with
  | nil => exact .ok (.of_eq rfl) h
  | cons keys rest ih =>
    refine (halts_readPages layer keys h).andThen ?_
    intro items _ s₁ h₁
    exact (ih h₁).thenOk _

/-! ### Calls -/

omit [Link σ] in
/-- The session is busy meanwhile, which changes nothing. -/
theorem halts_whileBusy {α : Type} {settled : Foregone α}
    {run : Session (Logged σ) → Outcome (Logged σ) α} (h : Holds held s)
    (hrun : ∀ s, Holds held s → Halts s settled (run s)) : Halts s settled (s.whileBusy run) := by
  have hstart : Wrote s { s with phase := .busy } := .of_eq rfl
  have hbusy := (hrun { s with phase := .busy } ⟨h.aborted, h.held⟩).after hstart
  unfold whileBusy
  rcases hresult : run { s with phase := .busy } with ⟨r, s₁⟩
  rw [hresult] at hbusy
  dsimp only
  -- whatever the phase is in the end, the session has the same link and holds the same messages
  generalize hs₂ : (if s₁.phase = .busy then { s₁ with phase := .ready } else s₁) = s₂
  have hlink : s₂.link = s₁.link := by
    rw [← hs₂]
    split <;> rfl
  have hsame : Wrote s₁ s₂ := .of_eq (by rw [hlink])
  cases hbusy with
  | settled eq reported wrote holds =>
    refine .settled eq reported (wrote.trans hsame) ?_
    rw [← hs₂]
    split <;> exact ⟨holds.aborted, holds.held⟩
  | aborted eq wrote => exact .aborted eq (wrote.trans hsame)
  | fault wrote last => exact .fault wrote (by rw [hlink, last])

/-- How a call ends in an aborted session. -/
inductive HaltsCall (s : Session (Logged σ)) (foregone? : Option Reply) :
    Reply × Session (Logged σ) → Prop where
  | settled {reply : Reply} {s' : Session (Logged σ)} (eq : foregone? = some reply)
      (reported : ∀ e, reply.error? = some e → e.isReported = true) (wrote : Wrote s s') :
      HaltsCall s foregone? (reply, s')
  | aborted {reply : Reply} {s' : Session (Logged σ)} (eq : foregone? = none)
      (error : reply.error? = some .aborted) (wrote : Wrote s s') :
      HaltsCall s foregone? (reply, s')
  | fault {reply : Reply} {f : Fault} {data : List UInt8} {s₁ s' : Session (Logged σ)}
      (error : reply.error? = some (.fault f)) (wrote : Wrote s s₁)
      (last : s'.link.uses = s₁.link.uses ++ [.write data (.error f)]) :
      HaltsCall s foregone? (reply, s')

omit [Link σ] in
/-- A call that is one operation halts as the operation does. -/
theorem HaltsCall.of_halts {α : Type} {settled : Foregone α} {outcome : Outcome (Logged σ) α}
    (h : Halts s settled outcome) {reply : Except SessionError α → Reply}
    (hreply : ∀ r, (reply r).error? = errorOf r) :
    HaltsCall s (settled.map fun found => reply found.1) (outcome.map reply id) := by
  cases h with
  | @settled r _ _ eq reported wrote _ =>
    refine .settled (by rw [eq]; rfl) ?_ wrote
    intro e he
    rw [hreply] at he
    cases r with
    | ok a => cases he
    | error e' =>
      cases he
      exact reported e rfl
  | aborted eq wrote => exact .aborted (by rw [eq]; rfl) (hreply _) wrote
  | fault wrote last => exact .fault (hreply _) wrote last

/-- Every call that waits halts on what the session holds. -/
theorem haltsCall_of_isBlocking (hopen : s.phase.isOpen = true) (h : Holds held s) {call : Call}
    (hcall : call.IsBlocking) : HaltsCall s (call.foregone? s) (call.perform s) := by
  have hrun {α : Type} (run : Session (Logged σ) → Outcome (Logged σ) α) :
      s.whenOpen run = run s := if_pos hopen
  cases call with
  | nextMessage timeout =>
    show HaltsCall s _ ((s.nextMessage timeout).map .message id)
    rw [nextMessage, hrun, Call.foregone?, h.held]
    cases hpending : s.pending with
    | cons m rest => exact .settled rfl (by rintro _ ⟨⟩) (.of_eq rfl)
    | nil =>
      cases held with
      | nil =>
        rw [receive_of_holds_nil h]
        exact .aborted rfl rfl (.of_eq rfl)
      | cons m rest =>
        obtain ⟨s₁, hr, -, hlink⟩ := receive_of_holds_cons h (s.now + timeout) false
        dsimp only
        rw [hr]
        exact .settled rfl (by rintro _ ⟨⟩) (.of_eq (congrArg _ hlink))
  | poll p =>
    show HaltsCall s _ ((s.poll p).map .answer id)
    rw [Session.poll, hrun, Call.foregone?, h.held]
    have hsome : p.attempts ≠ 0 := Poll.attempts_ne_zero hcall
    exact .of_halts (halts_whileBusy h fun _ h₁ => halts_exchange h₁ hsome) fun _ => rfl
  | sendBatch batch =>
    show HaltsCall s _ ((s.sendBatch batch).map .done id)
    rw [sendBatch, hrun, Call.foregone?, h.held]
    exact .of_halts (halts_whileBusy h fun _ h₁ => halts_applyBatch h₁ batch) fun _ => rfl
  | getConfig layer keys =>
    show HaltsCall s _ ((s.getConfig layer keys).map .items id)
    rw [getConfig, hrun, Call.foregone?, h.held]
    exact .of_halts (halts_whileBusy h fun _ h₁ => halts_readAll layer _ h₁) fun _ => rfl
  | _ => cases hcall

/-- What giving up means for a call. -/
structure Halted {σ : Type} [Link σ] (s : Session σ) (call : Call) : Prop where
  /-- Nothing is read; at most frames are written. -/
  unread : ∀ use ∈ call.uses s, ∃ data result, use = .write data result
  /-- What the messages that are held settle is answered, unless a write fails. -/
  settled : ∀ reply, call.fault? s = none → call.foregone? s = some reply →
    (call.perform s).1 = reply
  /-- If they settle nothing the call is aborted, and only then. -/
  aborted : (call.perform s).1.error? = some .aborted
    ↔ call.fault? s = none ∧ call.foregone? s = none
  fault : ∀ f, (call.perform s).1.error? = some (.fault f) ↔ call.fault? s = some f
  /-- Nothing is settled where nothing is held. -/
  unsettled : s.pending = [] → s.held = [] → call.foregone? s = none

omit [Link σ] in
/-- A call that waits cannot be settled by nothing. -/
theorem foregone?_eq_none {s : Session σ} {call : Call} (hcall : call.IsBlocking)
    (hpending : s.pending = []) (hheld : s.held = []) : call.foregone? s = none := by
  cases call with
  | nextMessage timeout =>
    rw [Call.foregone?, hpending, hheld]
    rfl
  | poll p =>
    rw [Call.foregone?, hheld]
    rfl
  | sendBatch batch =>
    have hsome : ¬batch.length ≤ 0 := by
      rw [Nat.le_zero_eq, List.length_eq_zero_iff]
      exact hcall
    rw [Call.foregone?, hheld, acksIn, if_neg hsome]
    rfl
  | getConfig layer keys =>
    have hsome : Config.chunksOf Config.Query.pageSize keys ≠ [] := by
      rw [ne_eq, Config.chunksOf_eq_nil_iff]
      exact hcall
    obtain ⟨first, rest, hchunks⟩ := List.exists_cons_of_ne_nil hsome
    rw [Call.foregone?, hheld, hchunks]
    rfl
  | _ => cases hcall

omit [Link σ] in
/-- The log of what is written in an aborted session. -/
theorem Wrote.uses (h : Wrote s s₁) (hnew : s.link.uses = []) :
    (∀ use ∈ s₁.link.uses, ∃ data result, use = .write data result)
      ∧ s₁.link.uses.findSome? Use.fault? = none := by
  obtain ⟨frames, hframes⟩ := h
  rw [hframes, hnew, List.nil_append, List.findSome?_eq_none_iff]
  constructor
  all_goals
    rintro _ hmem
    obtain ⟨data, -, rfl⟩ := List.mem_map.mp hmem
  · exact ⟨data, _, rfl⟩
  · rfl

omit [Link σ] in
/-- How a call ends can be read off the log. -/
theorem HaltsCall.of_new {settled : Option Reply} {outcome : Reply × Session (Logged σ)}
    (h : HaltsCall s settled outcome) (hnew : s.link.uses = []) :
    (∀ use ∈ outcome.2.link.uses, ∃ data result, use = .write data result)
      ∧ ((outcome.2.link.uses.findSome? Use.fault? = none ∧ settled = some outcome.1
          ∧ ∀ e, outcome.1.error? = some e → e.isReported = true)
        ∨ (outcome.2.link.uses.findSome? Use.fault? = none ∧ settled = none
          ∧ outcome.1.error? = some .aborted)
        ∨ ∃ f, outcome.2.link.uses.findSome? Use.fault? = some f
          ∧ outcome.1.error? = some (.fault f)) := by
  cases h with
  | settled eq reported wrote =>
    obtain ⟨hwrites, hnone⟩ := wrote.uses hnew
    exact ⟨hwrites, .inl ⟨hnone, eq, reported⟩⟩
  | aborted eq error wrote =>
    obtain ⟨hwrites, hnone⟩ := wrote.uses hnew
    exact ⟨hwrites, .inr (.inl ⟨hnone, eq, error⟩)⟩
  | @fault _ f data _ s' error wrote last =>
    obtain ⟨hwrites, hnone⟩ := wrote.uses hnew
    have hsome : s'.link.uses.findSome? Use.fault? = some f := by
      rw [last, List.findSome?_append, hnone]
      rfl
    refine ⟨?_, .inr (.inr ⟨f, hsome, error⟩)⟩
    intro use hmem
    rw [last] at hmem
    rcases List.mem_append.mp hmem with hmem | hmem
    · exact hwrites use hmem
    · exact ⟨data, _, List.mem_singleton.mp hmem⟩

/-- **An aborted session answers what is settled by the messages that it holds**, and is aborted
where nothing is. -/
theorem halted_of_isBlocking (s : Session σ) (call : Call) (hopen : s.phase.isOpen = true)
    (haborted : s.aborted = true) (hcall : call.IsBlocking) : Halted s call := by
  have hends := haltsCall_of_isBlocking (s := s.logged) hopen ⟨haborted, rfl⟩ hcall
  have hreply : (call.perform s).1 = (call.perform s.logged).1 :=
    congrArg Prod.fst (Call.perform_logged s call)
  have hforegone : call.foregone? s.logged = call.foregone? s := by cases call <;> rfl
  have hfault : call.fault? s = (call.perform s.logged).2.link.uses.findSome? Use.fault? := rfl
  have hunsettled := foregone?_eq_none (s := s) hcall
  obtain ⟨hwrites, hcases⟩ := hends.of_new rfl
  rw [hforegone, ← hreply, ← hfault] at hcases
  rcases hcases with ⟨hnone, heq, hreported⟩ | ⟨hnone, heq, herror⟩ | ⟨broken, hsome, herror⟩
  · -- what is settled says nothing of the session itself
    have hother (e : SessionError) (he : e.isReported = false) :
        (call.perform s).1.error? ≠ some e := by
      intro herror
      rw [hreported e herror] at he
      cases he
    refine ⟨hwrites, ?_, ?_, ?_, hunsettled⟩
    · intro reply _ hsettled
      exact Option.some.inj (heq.symm.trans hsettled)
    · simpa [heq] using hother .aborted rfl
    · intro f
      simpa [hnone] using hother (.fault f) rfl
  · refine ⟨hwrites, ?_, ?_, ?_, hunsettled⟩
    · intro reply _ hsettled
      rw [heq] at hsettled
      cases hsettled
    · simp [heq, hnone, herror]
    · intro f
      simp [hnone, herror]
  · refine ⟨hwrites, ?_, ?_, ?_, hunsettled⟩
    · intro reply hdone _
      rw [hsome] at hdone
      cases hdone
    · simp [hsome, herror]
    · intro f
      simp [hsome, herror]

/-! ### An answer that is held -/

/-- A session whose receiver sends the end of an epoch and its version, both at once. -/
def ofTwoMessages : Session Script where
  name := ""
  options := { detect := false }
  link := {
    incoming := [⟨0, .data (Frame.encode ⟨⟨0x01, 0x61⟩, []⟩ ++ Frame.encode ⟨.monVer, []⟩)⟩] }

/-- The first message was handed out and the second one is held when the user gives up. -/
def givenUp : Session Script := (performAll [.establish, .nextMessage 0, .abort] ofTwoMessages).2

/-- When the user gives up, the version is in the buffer and the link is not needed for it. -/
theorem exists_givenUp_eq : ∃ demux demux',
    givenUp = { ofTwoMessages with link := {}, demux, phase := .ready, aborted := true }
      ∧ demux.next? = some (⟨.ubx, Frame.encode ⟨.monVer, []⟩, 2⟩, demux') := by
  obtain ⟨ready, hready⟩ : ∃ s, s = (Call.perform ofTwoMessages .establish).2 := ⟨_, rfl⟩
  obtain ⟨demux, demux', hfirst, hsecond⟩ : ∃ demux demux',
      ready.receive (ready.now + 0) false
        = (.ok (some ⟨.ubx, Frame.encode ⟨⟨0x01, 0x61⟩, []⟩, 1⟩), { ready with link := {}, demux })
      ∧ demux.next? = some (⟨.ubx, Frame.encode ⟨.monVer, []⟩, 2⟩, demux') := by
    rw [hready]
    exact ⟨_, _, receive_of_arrived rfl rfl rfl rfl, rfl⟩
  have hnext : ready.nextMessage 0 = ready.receive (ready.now + 0) false := by
    rw [hready]
    rfl
  have hperform : givenUp = (ready.nextMessage 0).2.abort := by
    rw [hready]
    rfl
  refine ⟨demux, demux', ?_, hsecond⟩
  rw [hperform, hnext, hfirst, hready]
  rfl

/-- Giving up does not keep a poll from its answer if that is held. -/
theorem exists_answer_of_aborted :
    givenUp.phase.isOpen = true ∧ givenUp.aborted = true
      ∧ (Call.poll { id := .monVer }).IsBlocking
      ∧ (givenUp.poll { id := .monVer }).1
        = .ok ⟨⟨.ubx, Frame.encode ⟨.monVer, []⟩, 2⟩, false⟩ := by
  obtain ⟨demux, demux', hgivenUp, hnext⟩ := exists_givenUp_eq
  rw [hgivenUp]
  refine ⟨rfl, rfl, (by decide : 2 + 1 < UInt64.size), ?_⟩
  obtain ⟨busy, hbusy⟩ : ∃ s : Session Script, s = {
      ofTwoMessages with link := {}, demux, phase := .busy, aborted := true } := ⟨_, rfl⟩
  obtain ⟨sent, hsent⟩ : ∃ s, s = (putPoll { id := .monVer } busy).2 := ⟨_, rfl⟩
  have hput : putPoll { id := .monVer } busy = (.ok (), sent) := by
    rw [hsent, hbusy]
    rfl
  have hheld : sent.demux.next? = some (⟨.ubx, Frame.encode ⟨.monVer, []⟩, 2⟩, demux') := by
    rw [hsent, hbusy]
    exact hnext
  have hr : sent.receive (sent.now + millis 2000) false
      = (.ok (some ⟨.ubx, Frame.encode ⟨.monVer, []⟩, 2⟩), { sent with demux := demux' }) := by
    rw [receive_eq, hheld]
  have hpoll := exchange_of_receive (by decide) hput hr rfl
  rw [hbusy] at hpoll
  exact congrArg Prod.fst hpoll

/-- A call that can be made on this session, to which the theorem applies. -/
theorem halted_givenUp :
    givenUp.phase.isOpen = true ∧ givenUp.aborted = true
      ∧ (Call.poll { id := .monVer }).IsBlocking ∧ Halted givenUp (.poll { id := .monVer }) := by
  obtain ⟨demux, _, hgivenUp, -⟩ := exists_givenUp_eq
  have hopen : givenUp.phase.isOpen = true := by
    rw [hgivenUp]
    rfl
  have haborted : givenUp.aborted = true := by
    rw [hgivenUp]
  have hcall : (Call.poll { id := .monVer }).IsBlocking := (by decide : 2 + 1 < UInt64.size)
  exact ⟨hopen, haborted, hcall, halted_of_isBlocking _ _ hopen haborted hcall⟩

end Session
end GnssLink
