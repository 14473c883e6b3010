import GnssLink.Proofs.Session.Ledger
import GnssLink.Session.Configure
import GnssLink.Session.Detection
/-!
# GnssLink.Proofs.Session.Journal

**What an operation does with the messages it receives.** For each operation of a session that reads
from the stream there is the journal of its run (`awaitAnswerJournal` and so on), written by the
same recursion. `Session.Follows` says that a journal leads from one session to another: booked
on the queue and the numbering of the first it gives those of the second.

Design points:

* A journal receives what the stream gives, message for message (`Stream.Demux.Yields`).
* Reading the stream is the only way to a new number, and it makes no entry of its own: who
  receives a message says what becomes of it (`receive_eq_some`).
* Journals of operations in sequence are joined as the operations are (`Outcome.thenTell`), so an
  operation that breaks off has the journal up to there.
-/

namespace GnssLink

open GnssLink.Config (Item Layer Layers WriteMessage)
open GnssLink.Stream (Demux Message)

/-- The messages that a stream gives while bytes come in, it is cleared and messages are cut off. -/
inductive Stream.Demux.Yields : Demux → List Message → Demux → Prop where
  | nil {d : Demux} : Yields d [] d
  | add {d d' : Demux} {messages : List Message} (data : List UInt8)
      (more : Yields (d.add data) messages d') : Yields d messages d'
  | clear {d d' : Demux} {messages : List Message} (more : Yields d.clear messages d') :
      Yields d messages d'
  | next {d d₁ d' : Demux} {m : Message} {messages : List Message}
      (first : d.next? = some (m, d₁)) (more : Yields d₁ messages d') :
      Yields d (m :: messages) d'

theorem Stream.Demux.Yields.append {d d₁ d₂ : Demux} {messages more : List Message}
    (h : Yields d messages d₁) (hmore : Yields d₁ more d₂) : Yields d (messages ++ more) d₂ := by
  induction h with
  | nil => exact hmore
  | add data _ ih => exact .add data (ih hmore)
  | clear _ ih => exact .clear (ih hmore)
  | next first _ ih => exact .next first (ih hmore)

/-- What follows a success has to tell. -/
def Outcome.thenTell {σ α : Type} (outcome : Outcome σ α)
    (tell : α → Session σ → List Session.Entry) : List Session.Entry :=
  match outcome with
  | (.ok a, s) => tell a s
  | (.error _, _) => []

namespace Session

variable {σ : Type}

/-! ### Journals

Each is the journal of the operation that it is named for. -/

def keepJournal (s : Session σ) (m : Message) : List Entry :=
  if s.options.maxPending ≤ s.pending.length then (s.pending.take 1).map .dropped ++ [.kept m]
  else [.kept m]

variable [Link σ]

def nextMessageJournal (s : Session σ) (timeout : Nat) : List Entry :=
  match s.pending with
  | m :: _ => [.served m]
  | [] =>
    match s.receive (s.now + timeout) false with
    | (.ok (some m), _) => [.handed m]
    | _ => []

def awaitAnswerJournal (poll : Poll) (deadline : Nat) (s : Session σ) : List Entry :=
  if deadline < s.now then []
  else
    match h : s.receive deadline false with
    | (.ok (some m), s') =>
      match poll.classify m with
      | .answer | .refusal => [.answered poll m]
      | .unrelated =>
        have _ := backlog_lt_of_receive h
        s'.keepJournal m ++ awaitAnswerJournal poll deadline (s'.keep m)
    | _ => []
termination_by s.backlog
decreasing_by simpa only [backlog_keep]

def tryPollJournal (poll : Poll) : Nat → Session σ → List Entry
  | 0, _ => []
  | n + 1, s =>
    (putPoll poll s).thenTell fun _ s =>
      awaitAnswerJournal poll (s.now + poll.timeout) s
        ++ (awaitAnswer poll (s.now + poll.timeout) s).thenTell fun answer s =>
          match answer with
          | some _ => []
          | none => tryPollJournal poll n s

def exchangeJournal (poll : Poll) (s : Session σ) : List Entry :=
  tryPollJournal poll poll.attempts s

def awaitAcksJournal (expected acked deadline : Nat) (s : Session σ) : List Entry :=
  if expected ≤ acked then []
  else if deadline < s.now then []
  else
    match h : s.receive deadline false with
    | (.ok (some m), s') =>
      have _ := backlog_lt_of_receive h
      if m.acknowledgement? = some ⟨true, .cfgValset⟩ then
        .confirmed m
          :: awaitAcksJournal expected (acked + 1) (s'.now + s'.options.ackTimeout) s'
      else if m.acknowledgement? = some ⟨false, .cfgValset⟩ then [.confirmed m]
      else s'.keepJournal m ++ awaitAcksJournal expected acked deadline (s'.keep m)
    | _ => []
termination_by s.backlog
decreasing_by all_goals simpa only [backlog_keep]

def applyBatchJournal (batch : List WriteMessage) (s : Session σ) : List Entry :=
  (putAll (batch.map WriteMessage.frame) s).thenTell fun _ s =>
    awaitAcksJournal batch.length 0 (s.now + s.options.ackTimeout) s

def readPagesJournal (layer : Layer) (keys : List UInt32) (position : UInt16) (s : Session σ) :
    List Entry :=
  exchangeJournal (pagePoll layer position keys) s
    ++ match h : exchange (pagePoll layer position keys) s with
      | (.error _, _) => []
      | (.ok answer, s') =>
        if answer.refused then []
        else
          match Config.decode (answer.message.payload.drop Config.Query.headSize) with
          | .error _ => []
          | .ok items =>
            if items.length < Config.Query.pageSize then []
            else
              have _ := backlog_lt_of_exchange h
              readPagesJournal layer keys (nextPosition position) s'
termination_by s.backlog

def readAllJournal (layer : Layer) : List (List UInt32) → Session σ → List Entry
  | [], _ => []
  | keys :: rest, s =>
    readPagesJournal layer keys 0 s
      ++ (readPages layer keys 0 s).thenTell fun _ s => readAllJournal layer rest s

def searchJournal : List (Option UInt32) → Session σ → List Entry
  | [], _ => []
  | candidate :: rest, s =>
    (switchTo candidate s).thenTell fun _ s =>
      exchangeJournal (versionPoll s.options) s
        ++ (probe s).thenTell fun found s => if found then [] else searchJournal rest s

def detectJournal (s : Session σ) : List Entry :=
  (applyFixedRate s).thenTell fun _ s =>
    if s.options.detect then searchJournal (candidates s) s else []

/-! ### Booking -/

/-- What the journal of a session is booked on. -/
def ledger (s : Session σ) : Ledger := ⟨s.pending, s.demux.seq⟩

/-- The journal leads from one session to the other, and the caller gets nothing meanwhile. -/
structure Follows (s : Session σ) (journal : List Entry) (s' : Session σ) : Prop where
  options : s'.options = s.options
  run : Ledger.Run s.options.maxPending s.ledger journal s'.ledger
  yields : s.demux.Yields (received journal) s'.demux
  withheld : delivered journal = []

namespace Follows

variable {s s₁ s₂ : Session σ} {journal more : List Entry}

omit [Link σ] in
/-- What neither receives nor touches the queue needs no entry. -/
theorem quiet (hoptions : s₁.options = s.options) (hpending : s₁.pending = s.pending)
    (hdemux : s₁.demux = s.demux) : Follows s [] s₁ := by
  have hledger : s₁.ledger = s.ledger := by rw [ledger, hpending, hdemux, ledger]
  exact ⟨hoptions, hledger ▸ .nil, hdemux ▸ .nil, rfl⟩

omit [Link σ] in
theorem append (h : Follows s journal s₁) (hmore : Follows s₁ more s₂) :
    Follows s (journal ++ more) s₂ where
  options := hmore.options.trans h.options
  run := h.run.append (h.options ▸ hmore.run)
  yields := by rw [received_append]; exact h.yields.append hmore.yields
  withheld := by rw [delivered_append, h.withheld, hmore.withheld, List.append_nil]

omit [Link σ] in
/-- Of two steps the second has a journal only if the first succeeds. If it fails, its own journal
is the whole. -/
theorem andThen {α β : Type} {outcome : Outcome σ α} {next : α → Session σ → Outcome σ β}
    {tell : α → Session σ → List Entry} (h : Follows s journal outcome.2)
    (hnext : ∀ a s', outcome = (.ok a, s') → Follows s' (tell a s') (next a s').2) :
    Follows s (journal ++ outcome.thenTell tell) (outcome.andThen next).2 := by
  obtain ⟨e | a, s₁⟩ := outcome
  · exact h.append (.quiet rfl rfl rfl)
  · exact h.append (hnext a s₁ rfl)

end Follows

/-! ### What is received

An entry for a message is made only after the message was received, so it is booked on the ledger
from before (`receive_eq_some`). -/

/-- Receiving numbers the message and leaves the queue alone. The message is the only one that the
stream gives. -/
theorem receive_eq_some {s s₁ : Session σ} {deadline : Nat} {attempted : Bool} {m : Message}
    (h : s.receive deadline attempted = (.ok (some m), s₁)) :
    s₁.options = s.options ∧ m.seq = s.demux.seq + 1 ∧ s₁.ledger = ⟨s.pending, m.seq⟩
      ∧ s.demux.Yields [m] s₁.demux := by
  -- along the reads: every one only adds bytes to the stream, the last finds the message in it
  fun_induction receive s deadline attempted with
  | case1 s attempted m' demux hnext =>
    cases h
    have hyields : s.demux.Yields [m] demux := .next hnext .nil
    obtain ⟨_, -, hemit⟩ := Option.map_eq_some_iff.mp hnext
    cases hemit
    exact ⟨rfl, rfl, rfl, hyields⟩
  | case2 => cases h
  | case3 => cases h
  | case4 => cases h
  | case5 s attempted _ _ _ data link _ _ _ ih =>
    obtain ⟨hoptions, hseq, hledger, hyields⟩ := ih h
    exact ⟨hoptions, hseq, hledger, .add data hyields⟩

/-- Without a message there is nothing to enter, whatever was read and however the wait ended. -/
theorem follows_receive {s s₁ : Session σ} {deadline : Nat} {attempted : Bool}
    {r : Except SessionError (Option Message)} (h : s.receive deadline attempted = (r, s₁))
    (hr : ∀ m, r ≠ .ok (some m)) : Follows s [] s₁ := by
  -- no message rules out the first case, which is the only one to number anything
  fun_induction receive s deadline attempted with
  | case1 =>
    cases h
    exact absurd rfl (hr _)
  | case2 => cases h; exact .quiet rfl rfl rfl
  | case3 => cases h; exact .quiet rfl rfl rfl
  | case4 => cases h; exact .quiet rfl rfl rfl
  | case5 s attempted _ _ _ data link _ _ _ ih =>
    exact ⟨(ih h).options, (ih h).run, .add data (ih h).yields, rfl⟩

/-- A message that is received makes the entry of whoever takes it. -/
theorem follows_entry {s s₁ : Session σ} {deadline : Nat} {attempted : Bool} {m : Message}
    {e : Entry} (hr : s.receive deadline attempted = (.ok (some m), s₁))
    (hstep : m.seq = s.demux.seq + 1 →
      Ledger.Step s.options.maxPending s.ledger e ⟨s.pending, m.seq⟩)
    (hreceived : received [e] = [m]) (hwithheld : delivered [e] = []) : Follows s [e] s₁ := by
  obtain ⟨hoptions, hseq, hledger, hyields⟩ := receive_eq_some hr
  refine ⟨hoptions, ?_, hreceived ▸ hyields, hwithheld⟩
  rw [hledger]
  exact .single (hstep hseq)

/-- What is received may be a verdict on a configuration message. -/
theorem follows_confirmed {s s₁ : Session σ} {deadline : Nat} {attempted accepted : Bool}
    {m : Message} (hr : s.receive deadline attempted = (.ok (some m), s₁))
    (hverdict : m.acknowledgement? = some ⟨accepted, .cfgValset⟩) :
    Follows s [.confirmed m] s₁ := by
  refine follows_entry hr ?_ rfl rfl
  intro hseq
  exact .confirmed hseq ⟨accepted, hverdict⟩

/-- A message is kept with one entry, or with two if the queue has to give up its first message for
it. -/
theorem follows_keep {s s₁ : Session σ} {deadline : Nat} {attempted : Bool} {m : Message}
    (hr : s.receive deadline attempted = (.ok (some m), s₁)) :
    Follows s (s₁.keepJournal m) (s₁.keep m) := by
  obtain ⟨hoptions, hseq, hledger, hyields⟩ := receive_eq_some hr
  obtain ⟨hpending, hlast⟩ := Ledger.mk.inj hledger
  unfold keep keepJournal
  rw [hoptions, hpending]
  split
  · next hfull =>
    cases hqueue : s.pending with
    | nil =>
      -- a queue for no messages is always full, but it has none to give up
      refine ⟨rfl, .single ?_, hyields, rfl⟩
      simp only [ledger, hqueue, hlast]
      exact .kept hseq
    | cons first rest =>
      rw [hqueue] at hfull
      have hdrop : Ledger.Step s.options.maxPending s.ledger (.dropped first)
          ⟨rest, s.demux.seq⟩ := by
        rw [ledger, hqueue]
        exact .dropped hfull
      refine ⟨rfl, .cons hdrop (.single ?_), hyields, rfl⟩
      simp only [ledger, hlast]
      exact .kept hseq
  · refine ⟨rfl, .single ?_, hyields, rfl⟩
    simp only [ledger, hlast]
    exact .kept hseq

omit [Link σ] in
theorem turns_keepJournal (s : Session σ) (m : Message) : turns (s.keepJournal m) = [] := by
  unfold keepJournal
  split
  · cases s.pending <;> rfl
  · rfl

omit [Link σ] in
/-- Of the entries for a kept message one only was received: what it displaces came in before. -/
theorem received_keepJournal (s : Session σ) (m : Message) : received (s.keepJournal m) = [m] := by
  unfold keepJournal
  split
  · cases s.pending <;> rfl
  · rfl

/-! ### Operations -/

theorem follows_put (s : Session σ) (data : List UInt8) : Follows s [] (s.put data).2 := by
  unfold put
  split <;> exact .quiet rfl rfl rfl

theorem follows_putAll (frames : List (List UInt8)) (s : Session σ) :
    Follows s [] (putAll frames s).2 := by
  induction frames generalizing s with
  | nil => exact .quiet rfl rfl rfl
  | cons data rest ih =>
    -- the journal is empty whether the first write succeeds or not
    have h : Follows s ([] ++ (s.put data).thenTell fun _ _ => [])
        ((s.put data).andThen fun _ s => putAll rest s).2 :=
      (follows_put s data).andThen fun _ s₁ _ => ih s₁
    unfold putAll
    unfold Outcome.thenTell at h
    split at h <;> exact h

/-- The journal of a wait begins with the message that comes in first. -/
theorem awaitAnswerJournal_of_some {poll : Poll} {deadline : Nat} {s s₁ : Session σ} {m : Message}
    (htime : ¬deadline < s.now) (hr : s.receive deadline false = (.ok (some m), s₁)) :
    awaitAnswerJournal poll deadline s =
      match poll.classify m with
      | .answer | .refusal => [.answered poll m]
      | .unrelated => s₁.keepJournal m ++ awaitAnswerJournal poll deadline (s₁.keep m) := by
  rw [awaitAnswerJournal, if_neg htime]
  split
  · next hr' =>
    rw [hr] at hr'
    cases hr'
    rfl
  · next hne => exact absurd hr (hne _ _)

theorem awaitAnswerJournal_of_none {poll : Poll} {deadline : Nat} {s s₁ : Session σ}
    {r : Except SessionError (Option Message)} (hr : s.receive deadline false = (r, s₁))
    (hnone : ∀ m, r ≠ .ok (some m)) : awaitAnswerJournal poll deadline s = [] := by
  rw [awaitAnswerJournal]
  split
  · rfl
  · split
    · next hr' =>
      rw [hr] at hr'
      cases hr'
      exact absurd rfl (hnone _)
    · rfl

/-- A wait keeps what is unrelated, and the message that ends it goes to the poll. -/
theorem follows_awaitAnswer (poll : Poll) (deadline : Nat) (s : Session σ) :
    Follows s (awaitAnswerJournal poll deadline s) (awaitAnswer poll deadline s).2 := by
  fun_induction awaitAnswer poll deadline s with
  | case1 s hlate =>
    rw [awaitAnswerJournal, if_pos hlate]
    exact .quiet rfl rfl rfl
  | case2 s _ e s₁ hr | case3 s _ s₁ hr =>
    rw [awaitAnswerJournal_of_none hr (by simp)]
    exact follows_receive hr (by simp)
  | case4 s htime m s₁ hr hclass | case5 s htime m s₁ hr hclass =>
    rw [awaitAnswerJournal_of_some htime hr, hclass]
    refine follows_entry hr ?_ rfl rfl
    intro hseq
    exact .answered hseq (by simp [hclass])
  | case6 s htime m s₁ hr hclass _ ih =>
    rw [awaitAnswerJournal_of_some htime hr, hclass]
    exact (follows_keep hr).append ih

/-- The message that ends the wait is what the wait answers. -/
theorem turns_awaitAnswerJournal (poll : Poll) (deadline : Nat) (s : Session σ) :
    turns (awaitAnswerJournal poll deadline s)
      = match (awaitAnswer poll deadline s).1 with
        | .ok (some answer) => [(poll, answer.message)]
        | _ => [] := by
  fun_induction awaitAnswer poll deadline s with
  | case1 s hlate =>
    rw [awaitAnswerJournal, if_pos hlate]
    rfl
  | case2 s _ e s₁ hr | case3 s _ s₁ hr =>
    rw [awaitAnswerJournal_of_none hr (by simp)]
    rfl
  | case4 s htime m s₁ hr hclass | case5 s htime m s₁ hr hclass =>
    rw [awaitAnswerJournal_of_some htime hr, hclass]
    rfl
  | case6 s htime m s₁ hr hclass _ ih =>
    rw [awaitAnswerJournal_of_some htime hr, hclass, ← ih, turns_append, turns_keepJournal,
      List.nil_append]

theorem follows_putPoll (poll : Poll) (s : Session σ) : Follows s [] (putPoll poll s).2 := by
  unfold putPoll
  split
  · exact .quiet rfl rfl rfl
  · exact follows_put s poll.frame

/-- An attempt that is not answered hands its journal on to the next. -/
theorem follows_tryPoll (poll : Poll) (n : Nat) (s : Session σ) :
    Follows s (tryPollJournal poll n s) (tryPoll poll n s).2 := by
  induction n generalizing s with
  | zero => exact .quiet rfl rfl rfl
  | succ n ih =>
    refine (follows_putPoll poll s).andThen ?_
    intro _ s₁ _
    refine (follows_awaitAnswer poll _ s₁).andThen ?_
    intro answer s₂ _
    cases answer with
    | none => exact ih s₂
    | some _ => exact .quiet rfl rfl rfl

/-- The attempts of a poll have one answer among them, if any. -/
theorem turns_tryPollJournal (poll : Poll) (n : Nat) (s : Session σ) :
    turns (tryPollJournal poll n s)
      = match (tryPoll poll n s).1 with
        | .ok (some answer) => [(poll, answer.message)]
        | _ => [] := by
  induction n generalizing s with
  | zero => rfl
  | succ n ih =>
    unfold tryPollJournal tryPoll
    rcases putPoll poll s with ⟨e | _, s₁⟩
    · rfl
    · have hwait := turns_awaitAnswerJournal poll (s₁.now + poll.timeout) s₁
      simp only [Outcome.thenTell, Outcome.andThen_ok, turns_append, hwait]
      rcases awaitAnswer poll (s₁.now + poll.timeout) s₁ with ⟨e | _ | answer, s₂⟩
      · rfl
      · exact ih s₂
      · rfl

/-- Where the first attempt is answered the journal of the poll is that of the wait. -/
theorem exchangeJournal_of_awaitAnswer {poll : Poll} {s s₁ s₂ : Session σ} {answer : Answer}
    (hsome : poll.attempts ≠ 0) (hput : putPoll poll s = (.ok (), s₁))
    (hwait : awaitAnswer poll (s₁.now + poll.timeout) s₁ = (.ok (some answer), s₂)) :
    exchangeJournal poll s = awaitAnswerJournal poll (s₁.now + poll.timeout) s₁ := by
  obtain ⟨more, hmore⟩ := Nat.exists_eq_succ_of_ne_zero hsome
  rw [exchangeJournal, hmore, tryPollJournal, hput]
  simp only [Outcome.thenTell, hwait, List.append_nil]

/-- A poll that succeeds was answered exactly once, by the message that it returns. -/
theorem turns_exchangeJournal (poll : Poll) (s : Session σ) :
    turns (exchangeJournal poll s)
      = match (exchange poll s).1 with
        | .ok answer => [(poll, answer.message)]
        | .error _ => [] := by
  rw [exchangeJournal, turns_tryPollJournal, exchange]
  rcases tryPoll poll poll.attempts s with ⟨e | _ | answer, s₁⟩ <;> rfl

theorem answered_exchangeJournal (poll : Poll) (s : Session σ) :
    answered (exchangeJournal poll s)
      = match (exchange poll s).1 with
        | .ok answer => [answer.message]
        | .error _ => [] := by
  rw [answered_eq_map_turns, turns_exchangeJournal]
  rcases exchange poll s with ⟨e | answer, s₁⟩ <;> rfl

theorem follows_exchange (poll : Poll) (s : Session σ) :
    Follows s (exchangeJournal poll s) (exchange poll s).2 := by
  have h := follows_tryPoll poll poll.attempts s
  unfold exchange
  rcases ht : tryPoll poll poll.attempts s with ⟨e | _ | answer, s₁⟩ <;> rw [ht] at h <;> exact h

theorem awaitAcksJournal_of_some {expected acked deadline : Nat} {s s₁ : Session σ} {m : Message}
    (hmore : ¬expected ≤ acked) (htime : ¬deadline < s.now)
    (hr : s.receive deadline false = (.ok (some m), s₁)) :
    awaitAcksJournal expected acked deadline s =
      if m.acknowledgement? = some ⟨true, .cfgValset⟩ then
        .confirmed m
          :: awaitAcksJournal expected (acked + 1) (s₁.now + s₁.options.ackTimeout) s₁
      else if m.acknowledgement? = some ⟨false, .cfgValset⟩ then [.confirmed m]
      else s₁.keepJournal m ++ awaitAcksJournal expected acked deadline (s₁.keep m) := by
  rw [awaitAcksJournal, if_neg hmore, if_neg htime]
  split
  · next hr' =>
    rw [hr] at hr'
    cases hr'
    rfl
  · next hne => exact absurd hr (hne _ _)

theorem awaitAcksJournal_of_none {expected acked deadline : Nat} {s s₁ : Session σ}
    {r : Except SessionError (Option Message)} (hr : s.receive deadline false = (r, s₁))
    (hnone : ∀ m, r ≠ .ok (some m)) : awaitAcksJournal expected acked deadline s = [] := by
  rw [awaitAcksJournal]
  split
  · rfl
  · split
    · rfl
    · split
      · next hr' =>
        rw [hr] at hr'
        cases hr'
        exact absurd rfl (hnone _)
      · rfl

/-- The verdicts on configuration messages are used up, everything else is kept. -/
theorem follows_awaitAcks (expected acked deadline : Nat) (s : Session σ) :
    Follows s (awaitAcksJournal expected acked deadline s)
      (awaitAcks expected acked deadline s).2 := by
  fun_induction awaitAcks expected acked deadline s with
  | case1 acked _ s hdone =>
    rw [awaitAcksJournal, if_pos hdone]
    exact .quiet rfl rfl rfl
  | case2 acked _ s hmore hlate =>
    rw [awaitAcksJournal, if_neg hmore, if_pos hlate]
    exact .quiet rfl rfl rfl
  | case3 acked _ s _ _ e s₁ hr | case4 acked _ s _ _ s₁ hr =>
    rw [awaitAcksJournal_of_none hr (by simp)]
    exact follows_receive hr (by simp)
  | case5 acked _ s hmore htime m s₁ hr _ hack ih =>
    rw [awaitAcksJournal_of_some hmore htime hr, if_pos hack]
    exact (follows_confirmed hr hack).append ih
  | case6 acked _ s hmore htime m s₁ hr _ hack hnak =>
    rw [awaitAcksJournal_of_some hmore htime hr, if_neg hack, if_pos hnak]
    exact follows_confirmed hr hnak
  | case7 acked _ s hmore htime m s₁ hr _ hack hnak ih =>
    rw [awaitAcksJournal_of_some hmore htime hr, if_neg hack, if_neg hnak]
    exact (follows_keep hr).append ih

theorem follows_applyBatch (batch : List WriteMessage) (s : Session σ) :
    Follows s (applyBatchJournal batch s) (applyBatch batch s).2 :=
  (follows_putAll _ s).andThen fun _ s₁ _ => follows_awaitAcks batch.length 0 _ s₁

/-- After a page with its answer the reading goes on only if the page is full. -/
theorem readPagesJournal_of_ok {layer : Layer} {keys : List UInt32} {position : UInt16}
    {s s₁ : Session σ} {answer : Answer}
    (hpoll : exchange (pagePoll layer position keys) s = (.ok answer, s₁)) :
    readPagesJournal layer keys position s = exchangeJournal (pagePoll layer position keys) s
      ++ if answer.refused then []
        else
          match Config.decode (answer.message.payload.drop Config.Query.headSize) with
          | .error _ => []
          | .ok items =>
            if items.length < Config.Query.pageSize then []
            else readPagesJournal layer keys (nextPosition position) s₁ := by
  rw [readPagesJournal]
  split
  · next hpoll' => rw [hpoll] at hpoll'; cases hpoll'
  · next hpoll' =>
    rw [hpoll] at hpoll'
    cases hpoll'
    rfl

/-- Reading pages keeps and answers just what the polls for the pages do. -/
theorem follows_readPages (layer : Layer) (keys : List UInt32) (position : UInt16)
    (s : Session σ) :
    Follows s (readPagesJournal layer keys position s) (readPages layer keys position s).2 := by
  have hpage {position : UInt16} {s s₁ : Session σ} {r : Except SessionError Answer}
      (hpoll : exchange (pagePoll layer position keys) s = (r, s₁)) :
      Follows s (exchangeJournal (pagePoll layer position keys) s) s₁ := by
    have h := follows_exchange (pagePoll layer position keys) s
    rw [hpoll] at h
    exact h
  -- in every case but the last the page is the last one, and nothing follows its poll
  fun_induction readPages layer keys position s with
  | case1 position s e s₁ hpoll =>
    rw [readPagesJournal]
    split
    · exact (hpage hpoll).append (.quiet rfl rfl rfl)
    · next hpoll' => rw [hpoll] at hpoll'; cases hpoll'
  | case2 s answer s₁ hrefused hpoll =>
    rw [readPagesJournal_of_ok hpoll, if_pos hrefused]
    exact (hpage hpoll).append (.quiet rfl rfl rfl)
  | case3 position s answer s₁ hpoll hrefused =>
    rw [readPagesJournal_of_ok hpoll, if_pos hrefused]
    exact (hpage hpoll).append (.quiet rfl rfl rfl)
  | case4 position s answer s₁ hpoll hgiven e hdecode =>
    rw [readPagesJournal_of_ok hpoll, if_neg hgiven, hdecode]
    exact (hpage hpoll).append (.quiet rfl rfl rfl)
  | case5 position s answer s₁ hpoll hgiven items hdecode hlast =>
    rw [readPagesJournal_of_ok hpoll, if_neg hgiven, hdecode]
    simp only
    rw [if_pos hlast]
    exact (hpage hpoll).append (.quiet rfl rfl rfl)
  | case6 position s answer s₁ hpoll hgiven items hdecode hmore _ ih =>
    rw [readPagesJournal_of_ok hpoll, if_neg hgiven, hdecode]
    simp only
    rw [if_neg hmore]
    refine (hpage hpoll).append ?_
    -- joining the items of this page with those of the rest leaves the session alone
    rcases hr : readPages layer keys (nextPosition position) s₁ with ⟨e | more, s₂⟩ <;>
      rw [hr] at ih <;> exact ih

theorem follows_readAll (layer : Layer) (lists : List (List UInt32)) (s : Session σ) :
    Follows s (readAllJournal layer lists s) (readAll layer lists s).2 := by
  induction lists generalizing s with
  | nil => exact .quiet rfl rfl rfl
  | cons keys rest ih =>
    refine (follows_readPages layer keys 0 s).andThen ?_
    intro items s₁ _
    have hrest := ih s₁
    rcases hr : readAll layer rest s₁ with ⟨e | more, s₂⟩ <;> rw [hr] at hrest <;> exact hrest

/-! ### Detection -/

/-- Switching clears the stream of what it has buffered. A message that was not cut off yet has no
number, so the ledger does not change. -/
theorem follows_switchBaudRate (baud : UInt32) (s : Session σ) :
    Follows s [] (switchBaudRate baud s).2 := by
  unfold switchBaudRate
  split
  · exact .quiet rfl rfl rfl
  · split
    · exact .quiet rfl rfl rfl
    · exact ⟨rfl, .nil, .clear .nil, rfl⟩

theorem follows_switchTo (candidate : Option UInt32) (s : Session σ) :
    Follows s [] (switchTo candidate s).2 := by
  cases candidate with
  | none => exact .quiet rfl rfl rfl
  | some baud => exact follows_switchBaudRate baud s

theorem follows_applyFixedRate (s : Session σ) : Follows s [] (applyFixedRate s).2 := by
  unfold applyFixedRate
  split
  · split
    · exact follows_switchBaudRate _ s
    · exact .quiet rfl rfl rfl
  · exact .quiet rfl rfl rfl

/-- A probe judges the answer of its poll and does nothing else with it. -/
theorem follows_probe (s : Session σ) :
    Follows s (exchangeJournal (versionPoll s.options) s) (probe s).2 := by
  have h := follows_exchange (versionPoll s.options) s
  unfold probe
  split
  · next hpoll =>
    rw [hpoll] at h
    split
    · exact h
    · exact ⟨h.options, h.run, h.yields, h.withheld⟩
  · next hpoll => rw [hpoll] at h; exact h
  · next hpoll => rw [hpoll] at h; exact h

/-- Each candidate adds the journal of its probe, up to the one that is found. -/
theorem follows_search (candidates : List (Option UInt32)) (s : Session σ) :
    Follows s (searchJournal candidates s) (search candidates s).2 := by
  induction candidates generalizing s with
  | nil => exact .quiet rfl rfl rfl
  | cons candidate rest ih =>
    refine (follows_switchTo candidate s).andThen ?_
    intro _ s₁ _
    refine (follows_probe s₁).andThen ?_
    intro found s₂ _
    cases found with
    | true => exact .quiet rfl rfl rfl
    | false => exact ih s₂

theorem follows_detect (s : Session σ) : Follows s (detectJournal s) (detect s).2 := by
  refine (follows_applyFixedRate s).andThen ?_
  intro _ s₁ _
  split
  · exact follows_search _ s₁
  · exact .quiet rfl rfl rfl

end Session
end GnssLink
