import GnssLink.Proofs.Session.FirstAnswer
import GnssLink.Proofs.Session.RefusedWrites
/-!
# GnssLink.Proofs.Session.KeptQueue

**The queue of kept messages stays within its limit** (`Session.queue_of_calls`), in whatever order
the session is used and whatever its link does. At every moment it holds the last messages that were
put into it, in their order, and only a message for which there is no room makes the oldest of them
leave unserved.

Room is made before a message is put into the queue, so there is always room for one. A session that
is to keep none keeps one all the same (`Session.lt_length_pending_ofNoRoom`).
-/

namespace GnssLink

open GnssLink.Config (Item Layer Layers WriteMessage)
open GnssLink.Stream (Message)

/-- How many messages a session keeps at most. -/
def Options.room (options : Options) : Nat := max 1 options.maxPending

namespace Session

/-! ### In and out of the queue -/

/-- The message that was put into the queue. -/
def Entry.stored? : Entry → Option Message
  | kept m => some m
  | _ => none

/-- The message that left the queue. -/
def Entry.released? : Entry → Option Message
  | served m | dropped m => some m
  | _ => none

/-- The messages that were put into the queue. -/
def stored (journal : List Entry) : List Message := journal.filterMap Entry.stored?

/-- The messages that left the queue. -/
def released (journal : List Entry) : List Message := journal.filterMap Entry.released?

/-- First in, first out: the queue holds the last of the messages that were put into it. -/
theorem Ledger.Run.stored_eq {limit : Nat} {l l₁ : Ledger} {journal : List Entry}
    (h : Run limit l journal l₁) :
    l.queue ++ stored journal = released journal ++ l₁.queue := by
  induction h with
  | nil => simp [stored, released]
  | cons step _ ih =>
    cases step with
    | handed _ => exact ih
    | served => exact congrArg (_ :: ·) ih
    | answered _ _ => exact ih
    | confirmed _ _ => exact ih
    | kept _ =>
      rw [List.append_assoc] at ih
      exact ih
    | dropped _ => exact congrArg (_ :: ·) ih

/-! ### At every moment -/

/-- At no moment of the journal does the queue hold more than so many messages. -/
def StaysWithin (most : Nat) (queue : List Message) (journal : List Entry) : Prop :=
  ∀ before, before <+: journal → (queueAfter before queue).length ≤ most

namespace StaysWithin

variable {most : Nat} {queue : List Message} {journal more : List Entry} {e : Entry}

/-- In particular the queue that the journal starts with is within the limit. -/
theorem first (h : StaysWithin most queue journal) : queue.length ≤ most :=
  h [] List.nil_prefix

theorem last (h : StaysWithin most queue journal) : (queueAfter journal queue).length ≤ most :=
  h journal (List.prefix_refl journal)

theorem nil (h : queue.length ≤ most) : StaysWithin most queue [] := by
  intro before hbefore
  rw [List.prefix_nil.mp hbefore]
  exact h

theorem cons (h : queue.length ≤ most) (hmore : StaysWithin most (e.requeue queue) journal) :
    StaysWithin most queue (e :: journal) := by
  intro before hbefore
  cases before with
  | nil => exact h
  | cons first before =>
    obtain ⟨rfl, hrest⟩ := List.cons_prefix_cons.mp hbefore
    exact hmore before hrest

/-- The second of two journals starts with the queue that the first one leaves. -/
theorem append (h : StaysWithin most queue journal)
    (hmore : StaysWithin most (queueAfter journal queue) more) :
    StaysWithin most queue (journal ++ more) := by
  induction journal generalizing queue with
  | nil => exact hmore
  | cons e rest ih =>
    refine cons h.first (ih ?_ hmore)
    intro before hbefore
    exact h (e :: before) (List.cons_prefix_cons.mpr ⟨rfl, hbefore⟩)

end StaysWithin

variable {σ : Type}

/-- The session keeps no more messages than it has room for. -/
def Fits (s : Session σ) : Prop := s.pending.length ≤ s.options.room

/-- At no moment of the journal does it keep more. -/
def FitsDuring (s : Session σ) (journal : List Entry) : Prop :=
  StaysWithin s.options.room s.pending journal

variable {s s₁ : Session σ} {journal more : List Entry}

theorem Fits.during_nil (h : s.Fits) : s.FitsDuring [] := StaysWithin.nil h

/-- An entry that adds nothing to the queue. -/
theorem Fits.during_single {e : Entry} (h : s.Fits) (he : e.stored? = none) :
    s.FitsDuring [e] := by
  refine StaysWithin.cons h (StaysWithin.nil ?_)
  have hqueue : (e.requeue s.pending).length ≤ s.pending.length := by
    cases e with
    | kept m => cases he
    | served m => simp [Entry.requeue]
    | dropped m => simp [Entry.requeue]
    | handed m => exact Nat.le_refl _
    | answered poll m => exact Nat.le_refl _
    | confirmed m => exact Nat.le_refl _
  exact Nat.le_trans hqueue h

/-- A message takes the place of the oldest one, or there is room for it. -/
theorem Fits.during_keep (h : s.Fits) (m : Message) : s.FitsDuring (s.keepJournal m) := by
  unfold Fits Options.room at h
  unfold keepJournal FitsDuring Options.room
  by_cases hfull : s.options.maxPending ≤ s.pending.length
  · rw [if_pos hfull]
    cases hqueue : s.pending with
    | nil =>
      -- full and empty at once: nothing is to be kept, and there is none to give up for this one
      refine StaysWithin.cons (Nat.zero_le _) (StaysWithin.nil ?_)
      exact Nat.le_max_left _ _
    | cons oldest rest =>
      rw [hqueue, List.length_cons] at h
      have hrest : rest.length ≤ max 1 s.options.maxPending := Nat.le_of_succ_le h
      refine StaysWithin.cons h (StaysWithin.cons hrest (StaysWithin.nil ?_))
      rw [Entry.requeue, List.length_append]
      exact h
  · rw [if_neg hfull]
    refine StaysWithin.cons h (StaysWithin.nil ?_)
    rw [Entry.requeue, List.length_append, List.length_singleton]
    omega

namespace FitsDuring

/-- What follows a journal may count on the queue that it leaves: that fits too, and the limit is
still the same. -/
theorem append (h : s.FitsDuring journal) (hoptions : s₁.options = s.options)
    (hrun : Ledger.Run s.options.maxPending s.ledger journal s₁.ledger)
    (hmore : s₁.Fits → s₁.FitsDuring more) : s.FitsDuring (journal ++ more) := by
  have hqueue : s₁.pending = queueAfter journal s.pending := hrun.queue_eq
  have hfits : s₁.Fits := by
    unfold Fits
    rw [hqueue, hoptions]
    exact StaysWithin.last h
  have hrest := hmore hfits
  unfold FitsDuring at hrest
  rw [hqueue, hoptions] at hrest
  exact StaysWithin.append h hrest

/-- An operation that succeeds is followed by what the next one tells; one that fails has no more to
tell. -/
theorem thenTell {α : Type} {outcome : Outcome σ α} {tell : α → Session σ → List Entry}
    (h : s.FitsDuring journal) (hfollows : Follows s journal outcome.2)
    (hnext : ∀ a s', outcome = (.ok a, s') → s'.Fits → s'.FitsDuring (tell a s')) :
    s.FitsDuring (journal ++ outcome.thenTell tell) := by
  obtain ⟨e | a, s₁⟩ := outcome
  · exact h.append hfollows.options hfollows.run Fits.during_nil
  · exact h.append hfollows.options hfollows.run (hnext a s₁ rfl)

end FitsDuring

variable [Link σ]

/-! ### Operations

Only what is received can be put into the queue, and to receive it does not change the queue. -/

/-- A message that is received is kept where there is room for it. -/
theorem Fits.during_receive_keep {deadline : Nat} {attempted : Bool} {m : Message} (h : s.Fits)
    (hr : s.receive deadline attempted = (.ok (some m), s₁)) :
    s.FitsDuring (s₁.keepJournal m) := by
  obtain ⟨hoptions, -, hledger, -⟩ := receive_eq_some hr
  have hqueue : s₁.pending = s.pending := congrArg Ledger.queue hledger
  have h₁ : s₁.Fits := by
    unfold Fits
    rw [hoptions, hqueue]
    exact h
  have hkeep := h₁.during_keep m
  unfold FitsDuring at hkeep ⊢
  rw [hoptions, hqueue] at hkeep
  exact hkeep

/-- The wait for an answer keeps one message at a time, each in the place of the oldest one if the
queue is full. -/
theorem fitsDuring_awaitAnswer (poll : Poll) (deadline : Nat) (h : s.Fits) :
    s.FitsDuring (awaitAnswerJournal poll deadline s) := by
  -- along the wait itself: one message after the other is kept until one ends it
  fun_induction awaitAnswer poll deadline s with
  | case1 s hlate =>
    rw [awaitAnswerJournal, if_pos hlate]
    exact h.during_nil
  | case2 s _ e s₁ hr | case3 s _ s₁ hr =>
    rw [awaitAnswerJournal_of_none hr (by simp)]
    exact h.during_nil
  | case4 s htime m s₁ hr hclass | case5 s htime m s₁ hr hclass =>
    rw [awaitAnswerJournal_of_some htime hr, hclass]
    exact h.during_single rfl
  | case6 s htime m s₁ hr hclass _ ih =>
    rw [awaitAnswerJournal_of_some htime hr, hclass]
    have hfollows := follows_keep hr
    exact (h.during_receive_keep hr).append hfollows.options hfollows.run ih

/-- An attempt begins with the queue that the one before it leaves. -/
theorem fitsDuring_tryPoll (poll : Poll) (n : Nat) (h : s.Fits) :
    s.FitsDuring (tryPollJournal poll n s) := by
  induction n generalizing s with
  | zero => exact h.during_nil
  | succ n ih =>
    refine h.during_nil.thenTell (follows_putPoll poll s) ?_
    intro _ s₁ _ h₁
    refine (fitsDuring_awaitAnswer poll _ h₁).thenTell (follows_awaitAnswer poll _ s₁) ?_
    intro answer s₂ _ h₂
    cases answer with
    | none => exact ih h₂
    | some _ => exact h₂.during_nil

theorem fitsDuring_exchange (poll : Poll) (h : s.Fits) : s.FitsDuring (exchangeJournal poll s) :=
  fitsDuring_tryPoll poll poll.attempts h

/-- The wait for acknowledgements keeps what is none. Those that it counts never see the queue. -/
theorem fitsDuring_awaitAcks (expected acked deadline : Nat) (h : s.Fits) :
    s.FitsDuring (awaitAcksJournal expected acked deadline s) := by
  fun_induction awaitAcks expected acked deadline s with
  | case1 acked _ s hdone =>
    rw [awaitAcksJournal, if_pos hdone]
    exact h.during_nil
  | case2 acked _ s hmore hlate =>
    rw [awaitAcksJournal, if_neg hmore, if_pos hlate]
    exact h.during_nil
  | case3 acked _ s _ _ e s₁ hr | case4 acked _ s _ _ s₁ hr =>
    rw [awaitAcksJournal_of_none hr (by simp)]
    exact h.during_nil
  | case5 acked _ s hmore htime m s₁ hr _ hack ih =>
    rw [awaitAcksJournal_of_some hmore htime hr, if_pos hack]
    -- the wait goes on with a new deadline, of which the queue knows nothing
    have hsingle : s.FitsDuring [.confirmed m] := h.during_single rfl
    have hfollows := follows_confirmed hr hack
    exact hsingle.append hfollows.options hfollows.run ih
  | case6 acked _ s hmore htime m s₁ hr _ hack hnak =>
    rw [awaitAcksJournal_of_some hmore htime hr, if_neg hack, if_pos hnak]
    exact h.during_single rfl
  | case7 acked _ s hmore htime m s₁ hr _ hack hnak ih =>
    rw [awaitAcksJournal_of_some hmore htime hr, if_neg hack, if_neg hnak]
    have hfollows := follows_keep hr
    exact (h.during_receive_keep hr).append hfollows.options hfollows.run ih

/-- A batch is written before anything is received. -/
theorem fitsDuring_applyBatch (batch : List WriteMessage) (h : s.Fits) :
    s.FitsDuring (applyBatchJournal batch s) := by
  refine h.during_nil.thenTell (follows_putAll _ s) ?_
  intro _ s₁ _ h₁
  exact fitsDuring_awaitAcks batch.length 0 _ h₁

/-- A read of pages receives in the polls for them, and in nothing else. -/
theorem fitsDuring_readPages (layer : Layer) (keys : List UInt32) (position : UInt16)
    (h : s.Fits) : s.FitsDuring (readPagesJournal layer keys position s) := by
  -- every case begins with the poll for a page, and only a full page has another one behind it
  have hpage (position : UInt16) {s : Session σ} (h : s.Fits) :=
    fitsDuring_exchange (pagePoll layer position keys) h
  fun_induction readPages layer keys position s with
  | case1 position s e s₁ hpoll =>
    rw [readPagesJournal]
    split
    · rw [List.append_nil]
      exact hpage position h
    · next hpoll' => rw [hpoll] at hpoll'; cases hpoll'
  | case2 s answer s₁ hrefused hpoll =>
    rw [readPagesJournal_of_ok hpoll, if_pos hrefused, List.append_nil]
    exact hpage 0 h
  | case3 position s answer s₁ hpoll hrefused =>
    rw [readPagesJournal_of_ok hpoll, if_pos hrefused, List.append_nil]
    exact hpage position h
  | case4 position s answer s₁ hpoll hgiven e hdecode =>
    rw [readPagesJournal_of_ok hpoll, if_neg hgiven, hdecode, List.append_nil]
    exact hpage position h
  | case5 position s answer s₁ hpoll hgiven items hdecode hlast =>
    rw [readPagesJournal_of_ok hpoll, if_neg hgiven, hdecode]
    simp only
    rw [if_pos hlast, List.append_nil]
    exact hpage position h
  | case6 position s answer s₁ hpoll hgiven items hdecode hmore _ ih =>
    have hfollows := follows_exchange (pagePoll layer position keys) s
    rw [hpoll] at hfollows
    rw [readPagesJournal_of_ok hpoll, if_neg hgiven, hdecode]
    simp only
    rw [if_neg hmore]
    exact (hpage position h).append hfollows.options hfollows.run ih

theorem fitsDuring_readAll (layer : Layer) (lists : List (List UInt32)) (h : s.Fits) :
    s.FitsDuring (readAllJournal layer lists s) := by
  induction lists generalizing s with
  | nil => exact h.during_nil
  | cons keys rest ih =>
    refine (fitsDuring_readPages layer keys 0 h).thenTell (follows_readPages layer keys 0 s) ?_
    intro _ s₁ _ h₁
    exact ih h₁

/-- A search receives in the polls of its candidates. To change the baud rate between them forgets
what the stream has, and leaves the queue alone. -/
theorem fitsDuring_search (candidates : List (Option UInt32)) (h : s.Fits) :
    s.FitsDuring (searchJournal candidates s) := by
  induction candidates generalizing s with
  | nil => exact h.during_nil
  | cons candidate rest ih =>
    refine h.during_nil.thenTell (follows_switchTo candidate s) ?_
    intro _ s₁ _ h₁
    refine (fitsDuring_exchange _ h₁).thenTell (follows_probe s₁) ?_
    intro found s₂ _ h₂
    cases found with
    | true => exact h₂.during_nil
    | false => exact ih h₂

theorem fitsDuring_detect (h : s.Fits) : s.FitsDuring (detectJournal s) := by
  refine h.during_nil.thenTell (follows_applyFixedRate s) ?_
  intro _ s₁ _ h₁
  by_cases hdetect : s₁.options.detect = true
  · rw [if_pos hdetect]
    exact fitsDuring_search _ h₁
  · rw [if_neg hdetect]
    exact h₁.during_nil

/-- A message for the caller comes from the queue or past it. -/
theorem fitsDuring_nextMessage (timeout : Nat) (h : s.Fits) :
    s.FitsDuring (s.nextMessageJournal timeout) := by
  unfold nextMessageJournal
  split
  · exact h.during_single rfl
  · split
    · exact h.during_single rfl
    · exact h.during_nil

/-! ### Calls -/

/-- Whatever the call is, a queue that fits when it begins fits at every moment of it. -/
theorem fitsDuring_journal (call : Call) (h : s.Fits) : s.FitsDuring (call.journal s) := by
  have hopen {journal : List Entry} (hjournal : s.FitsDuring journal) :
      s.FitsDuring (if s.phase.isOpen then journal else []) := by
    by_cases hopen : s.phase.isOpen = true
    · rw [if_pos hopen]
      exact hjournal
    · rw [if_neg hopen]
      exact h.during_nil
  -- what an operation needs of the queue does not depend on the phase
  have hphase (phase : Phase) : ({ s with phase } : Session σ).Fits := h
  -- the calls that tell nothing are listed too, so that a new call has to be thought about
  cases call with
  | establish =>
    show s.FitsDuring
      (if s.phase = .closed then [] else detectJournal { s with phase := .detecting })
    by_cases hclosed : s.phase = .closed
    · rw [if_pos hclosed]
      exact h.during_nil
    · rw [if_neg hclosed]
      exact fitsDuring_detect (hphase .detecting)
  | nextMessage timeout => exact hopen (fitsDuring_nextMessage timeout h)
  | poll poll => exact hopen (fitsDuring_exchange poll (hphase .busy))
  | setConfig items layers =>
    cases hsplit : s.options.write.split items layers with
    | error e =>
      rw [(Call.isIdle_setConfig hsplit).journal]
      exact h.during_nil
    | ok batch =>
      rw [(Call.agree_setConfig hsplit).journal]
      exact hopen (fitsDuring_applyBatch batch (hphase .busy))
  | sendBatch batch => exact hopen (fitsDuring_applyBatch batch (hphase .busy))
  | getConfig layer keys => exact hopen (fitsDuring_readAll layer _ (hphase .busy))
  | close => exact h.during_nil
  | send data => exact h.during_nil
  | reset r => exact h.during_nil
  | setBaudRate baud => exact h.during_nil
  | abort => exact h.during_nil
  | resume => exact h.during_nil

theorem fitsDuring_journalAll (calls : List Call) (h : s.Fits) :
    s.FitsDuring (journalAll calls s) := by
  induction calls generalizing s with
  | nil => exact h.during_nil
  | cons call rest ih =>
    have htrue := Call.isTrue s call
    exact (fitsDuring_journal call h).append htrue.options htrue.run ih

/-- **The queue holds the last messages that were put into it**, and no more than it has room
for. -/
theorem queue_of_calls (name : String) (options : Options) (link : σ) (calls : List Call) :
    (∀ before after, journalAll calls { name, options, link } = before ++ after →
        stored before = released before ++ queueAfter before []
          ∧ (queueAfter before []).length ≤ max 1 options.maxPending
          ∧ (1 ≤ options.maxPending → (queueAfter before []).length ≤ options.maxPending)
          ∧ ∀ m rest, after = .dropped m :: rest →
            (queueAfter before []).length = max 1 options.maxPending
              ∧ (queueAfter before []).head? = some m)
      ∧ (performAll calls { name, options, link }).2.pending
        = queueAfter (journalAll calls { name, options, link }) [] := by
  have hrun := run_journalAll calls { name, options, link }
  have hfits : ({ name, options, link } : Session σ).Fits := Nat.zero_le _
  have hstays := fitsDuring_journalAll calls hfits
  refine ⟨?_, hrun.queue_eq⟩
  intro before after hjournal
  rw [hjournal] at hrun hstays
  have hlength : (queueAfter before []).length ≤ max 1 options.maxPending :=
    hstays before (List.prefix_append before after)
  obtain ⟨l, hbefore, -⟩ := hrun.of_append
  refine ⟨?_, hlength, ?_, ?_⟩
  · have hstored := hbefore.stored_eq
    rw [hbefore.queue_eq] at hstored
    exact hstored
  · intro hroom
    omega
  · rintro m rest rfl
    have hdropped : options.maxPending ≤ (queueAfter before []).length
        ∧ (queueAfter before []).head? = some m := hrun.of_dropped
    obtain ⟨hfull, hhead⟩ := hdropped
    -- the limit may be zero, but a message that is given up was there
    have hsome : 0 < (queueAfter before []).length := by
      cases hqueue : queueAfter before [] with
      | nil =>
        rw [hqueue] at hhead
        cases hhead
      | cons first rest => exact Nat.succ_pos _
    exact ⟨by omega, hhead⟩

/-- To be busy meanwhile is nothing to the queue. -/
theorem pending_whileBusy {σ α : Type} (s : Session σ) (run : Session σ → Outcome σ α) :
    (s.whileBusy run).2.pending = (run { s with phase := .busy }).2.pending := by
  unfold whileBusy
  dsimp only
  split <;> rfl

/-- A session that is to keep no messages, whose receiver sends the end of an epoch and its version,
both at once. -/
def ofNoRoom : Session Script where
  name := ""
  options := { detect := false, maxPending := 0 }
  link := {
    incoming := [⟨0, .data (Frame.encode ⟨⟨0x01, 0x61⟩, []⟩ ++ Frame.encode ⟨.monVer, []⟩)⟩] }

/-- A wait for the version. -/
def versionWait : Poll := { id := .monVer, waitOnly := true }

/-- The message before the version is kept although none is to be kept. -/
theorem lt_length_pending_ofNoRoom :
    ofNoRoom.options.maxPending
      < (performAll [.establish, .poll versionWait] ofNoRoom).2.pending.length := by
  obtain ⟨busy, hbusy⟩ : ∃ s : Session Script, s = { ofNoRoom with phase := .busy } := ⟨_, rfl⟩
  obtain ⟨demux, demux', hfirst, hsecond⟩ : ∃ demux demux',
      busy.receive (busy.now + millis 2000) false
          = (.ok (some ⟨.ubx, Frame.encode ⟨⟨0x01, 0x61⟩, []⟩, 1⟩),
            { busy with link := {}, demux })
        ∧ demux.next? = some (⟨.ubx, Frame.encode ⟨.monVer, []⟩, 2⟩, demux') := by
    rw [hbusy]
    exact ⟨_, _, receive_of_arrived rfl rfl rfl rfl, rfl⟩
  -- the first message is put into the queue, the second one ends the wait
  obtain ⟨waiting, hwaiting⟩ : ∃ s : Session Script, s = keep { busy with link := {}, demux }
      ⟨.ubx, Frame.encode ⟨⟨0x01, 0x61⟩, []⟩, 1⟩ := ⟨_, rfl⟩
  have htime : waiting.now ≤ busy.now + millis 2000 := by
    rw [hwaiting, hbusy]
    exact Nat.zero_le _
  have hleft : waiting.demux.next? = some (⟨.ubx, Frame.encode ⟨.monVer, []⟩, 2⟩, demux') := by
    rw [hwaiting, hbusy]
    exact hsecond
  have hwait : awaitAnswer versionWait (busy.now + millis 2000) busy
      = (.ok (some ⟨⟨.ubx, Frame.encode ⟨.monVer, []⟩, 2⟩, false⟩),
        { waiting with demux := demux' }) := by
    rw [awaitAnswer_of_unrelated (Nat.le_add_right _ _) hfirst rfl, ← hwaiting]
    exact awaitAnswer_of_answer htime (receive_of_next? hleft _ _) rfl
  have hexchange : exchange versionWait busy
      = (.ok ⟨⟨.ubx, Frame.encode ⟨.monVer, []⟩, 2⟩, false⟩,
        { waiting with demux := demux' }) := by
    have hput : putPoll versionWait busy = (.ok (), busy) := rfl
    exact exchange_of_awaitAnswer (by decide) hput hwait
  have hreached : (performAll [.establish, .poll versionWait] ofNoRoom).2.pending
      = (exchange versionWait busy).2.pending := by
    rw [hbusy]
    exact pending_whileBusy { ofNoRoom with phase := .ready } (exchange versionWait)
  rw [hreached, hexchange, hwaiting, hbusy]
  exact Nat.one_pos

end Session
end GnssLink
