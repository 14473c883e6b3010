import GnssLink.Link.Script
import GnssLink.Proofs.Session.Journal
import GnssLink.Proofs.Session.Rounds
/-!
# GnssLink.Proofs.Session.Calls

**The stream of a session loses, doubles and reorders nothing** (`Session.accounts_of_calls`), in
whatever order the session is used and whatever the link does. What a call does with the messages it
receives is in its journal (`Call.journal`); the journals of all calls in order are booked on one
ledger, which is empty at first and in the end holds what the session keeps (`Session.run_journal`).
-/

namespace GnssLink

open GnssLink.Config (Item Layer Layers WriteMessage)
open GnssLink.Stream (Demux Message)

/-- A use of a session. -/
inductive Call where
  | establish
  | close
  | nextMessage (timeout : Nat)
  | send (data : List UInt8)
  | poll (poll : Poll)
  | setConfig (items : List Item) (layers : Layers)
  | sendBatch (batch : List WriteMessage)
  | getConfig (layer : Layer) (keys : List UInt32)
  | reset (r : Reset)
  | setBaudRate (baud : UInt32)
  | abort
  | resume

/-- What a call answers. -/
inductive Reply where
  | done (result : Except SessionError Unit)
  | message (result : Except SessionError (Option Message))
  | answer (result : Except SessionError Answer)
  | items (result : Except SessionError (List Item))

namespace Reply

/-- The message of the stream in a reply. -/
def delivered : Reply → List Message
  | message (.ok (some m)) => [m]
  | _ => []

/-- The answer to a poll in a reply. -/
def answers : Reply → List Message
  | answer (.ok a) => [a.message]
  | _ => []

end Reply

namespace Call

variable {σ : Type} [Link σ]

/-- Uses the session. -/
def perform (s : Session σ) : Call → Reply × Session σ
  | establish => (s.establish).map .done id
  | close => (.done (.ok ()), s.close)
  | nextMessage timeout => (s.nextMessage timeout).map .message id
  | send data => (s.send data).map .done id
  | poll p => (s.poll p).map .answer id
  | setConfig items layers => (s.setConfig items layers).map .done id
  | sendBatch batch => (s.sendBatch batch).map .done id
  | getConfig layer keys => (s.getConfig layer keys).map .items id
  | reset r => (s.reset r).map .done id
  | setBaudRate baud => (s.setBaudRate baud).map .done id
  | abort => (.done (.ok ()), s.abort)
  | resume => (.done (.ok ()), s.resume)

/-- What the call does with the messages it receives. -/
def journal (s : Session σ) : Call → List Session.Entry
  | establish =>
    if s.phase = .closed then [] else Session.detectJournal { s with phase := .detecting }
  | nextMessage timeout => if s.phase.isOpen then s.nextMessageJournal timeout else []
  | poll p =>
    if s.phase.isOpen then Session.exchangeJournal p { s with phase := .busy } else []
  | setConfig items layers =>
    match s.options.write.split items layers with
    | .error _ => []
    | .ok batch =>
      if s.phase.isOpen then Session.applyBatchJournal batch { s with phase := .busy } else []
  | sendBatch batch =>
    if s.phase.isOpen then Session.applyBatchJournal batch { s with phase := .busy } else []
  | getConfig layer keys =>
    if s.phase.isOpen then
      Session.readAllJournal layer (Config.chunksOf Config.Query.pageSize keys)
        { s with phase := .busy }
    else []
  | close | send _ | reset _ | setBaudRate _ | abort | resume => []

/-- The journal of the call is true: it leads to the session after the call, and the reply is what
it says. A poll that the session makes on its own account is in no reply. -/
structure IsTrue (s : Session σ) (call : Call) : Prop where
  options : (call.perform s).2.options = s.options
  run : Session.Ledger.Run s.options.maxPending s.ledger (call.journal s)
    (call.perform s).2.ledger
  yields : s.demux.Yields (Session.received (call.journal s)) (call.perform s).2.demux
  delivered : (call.perform s).1.delivered = Session.delivered (call.journal s)
  answered : (call.perform s).1.answers.Sublist (Session.answered (call.journal s))

end Call

namespace Session

variable {σ : Type}

/-- A call that is refused for a session that is not open has an empty journal. -/
theorem follows_whenOpen {α : Type} {s : Session σ} {run : Session σ → Outcome σ α}
    {journal : List Entry} (h : Follows s journal (run s).2) :
    Follows s (if s.phase.isOpen then journal else []) (s.whenOpen run).2 := by
  unfold whenOpen
  split
  · exact h
  · exact .quiet rfl rfl rfl

/-- The phase is in no journal. -/
theorem follows_whileBusy {α : Type} {s : Session σ} {run : Session σ → Outcome σ α}
    {journal : List Entry}
    (h : Follows { s with phase := .busy } journal (run { s with phase := .busy }).2) :
    Follows s journal (s.whileBusy run).2 := by
  unfold whileBusy
  rcases hrun : run { s with phase := .busy } with ⟨r, s₁⟩
  rw [hrun] at h
  dsimp only
  split <;> exact ⟨h.options, h.run, h.yields, h.withheld⟩

variable [Link σ]

/-- Establishing keeps what it hears before the version of the receiver. -/
theorem follows_establish (s : Session σ) :
    Follows s (if s.phase = .closed then [] else detectJournal { s with phase := .detecting })
      s.establish.2 := by
  unfold establish
  split
  · exact .quiet rfl rfl rfl
  · have h := follows_detect { s with phase := .detecting }
    split <;> next hdetect =>
      rw [hdetect] at h
      exact ⟨h.options, h.run, h.yields, h.withheld⟩

theorem follows_setBaudRate (baud : UInt32) (s : Session σ) :
    Follows s [] (s.setBaudRate baud).2 := by
  unfold setBaudRate whenOpen
  split
  · dsimp only
    split
    · exact .quiet rfl rfl rfl
    · exact follows_switchBaudRate baud s
  · exact .quiet rfl rfl rfl

theorem follows_send (s : Session σ) (data : List UInt8) : Follows s [] (s.send data).2 := by
  have h : Follows s (if s.phase.isOpen then [] else []) (s.whenOpen fun s => s.put data).2 :=
    follows_whenOpen (follows_put s data)
  rwa [ite_self] at h

theorem follows_reset (s : Session σ) (r : Reset) : Follows s [] (s.reset r).2 := by
  have h : Follows s (if s.phase.isOpen then [] else [])
      (s.whenOpen fun s => putAll (r.frames.map Frame.encode) s).2 :=
    follows_whenOpen (follows_putAll _ s)
  rwa [ite_self] at h

theorem follows_poll (s : Session σ) (poll : Poll) :
    Follows s (if s.phase.isOpen then exchangeJournal poll { s with phase := .busy } else [])
      (s.poll poll).2 := by
  apply follows_whenOpen
  apply follows_whileBusy
  exact follows_exchange poll _

/-- The journal of a poll names the message that the caller gets. -/
theorem answers_poll (s : Session σ) (poll : Poll) :
    (Reply.answer (s.poll poll).1).answers = answered
      (if s.phase.isOpen then exchangeJournal poll { s with phase := .busy } else []) := by
  unfold Session.poll whenOpen
  split
  · rw [answered_exchangeJournal]
    rcases hr : exchange poll { s with phase := .busy } with ⟨e | answer, s₁⟩ <;>
      simp [whileBusy, hr, Reply.answers]
  · rfl

theorem follows_sendBatch (s : Session σ) (batch : List WriteMessage) :
    Follows s (if s.phase.isOpen then applyBatchJournal batch { s with phase := .busy } else [])
      (s.sendBatch batch).2 := by
  apply follows_whenOpen
  apply follows_whileBusy
  exact follows_applyBatch batch _

theorem follows_getConfig (s : Session σ) (layer : Layer) (keys : List UInt32) :
    Follows s
      (if s.phase.isOpen then
        readAllJournal layer (Config.chunksOf Config.Query.pageSize keys) { s with phase := .busy }
      else [])
      (s.getConfig layer keys).2 := by
  apply follows_whenOpen
  apply follows_whileBusy
  exact follows_readAll layer _ _

end Session

namespace Call

variable {σ : Type} [Link σ] {s : Session σ} {call : Call}

/-- Most calls neither hand out a message nor answer with one. -/
theorem IsTrue.of_follows (h : Session.Follows s (call.journal s) (call.perform s).2)
    (hdelivered : (call.perform s).1.delivered = []) (hanswers : (call.perform s).1.answers = []) :
    IsTrue s call where
  options := h.options
  run := h.run
  yields := h.yields
  delivered := by rw [h.withheld, hdelivered]
  answered := by rw [hanswers]; exact List.nil_sublist _

/-- Writing items is writing the batch that they are split into, if they can be split. -/
theorem isTrue_setConfig (s : Session σ) (items : List Item) (layers : Layers) :
    IsTrue s (.setConfig items layers) := by
  refine .of_follows ?_ rfl rfl
  show Session.Follows s
    (match s.options.write.split items layers with
      | .error _ => []
      | .ok batch => journal s (.sendBatch batch))
    (s.setConfig items layers).2
  unfold Session.setConfig
  cases s.options.write.split items layers with
  | error e => exact .quiet rfl rfl rfl
  | ok batch => exact Session.follows_sendBatch s batch

theorem isTrue_poll (s : Session σ) (poll : Poll) : IsTrue s (.poll poll) := by
  have h := Session.follows_poll s poll
  refine ⟨h.options, h.run, h.yields, h.withheld.symm, ?_⟩
  show (Reply.answer (s.poll poll).1).answers.Sublist _
  rw [Session.answers_poll]
  exact List.Sublist.refl _

/-- Where nothing is handed out nothing is to be entered. -/
theorem isTrue_nextMessage_of_nothing {timeout : Nat} {s₁ : Session σ}
    {r : Except SessionError (Option Message)} (hperform : s.nextMessage timeout = (r, s₁))
    (hnone : ∀ m, r ≠ .ok (some m)) (hjournal : journal s (.nextMessage timeout) = [])
    (h : Session.Follows s [] s₁) : IsTrue s (.nextMessage timeout) := by
  refine .of_follows ?_ ?_ ?_
  · rw [hjournal, perform, hperform]
    exact h
  · rw [perform, hperform]
    match r with
    | .error _ | .ok none => rfl
    | .ok (some m) => exact absurd rfl (hnone m)
  · rw [perform, hperform]
    rfl

/-- Where a message is handed out one entry says where it came from. -/
theorem isTrue_nextMessage_of_some {timeout : Nat} {m : Message} {s₁ : Session σ}
    {e : Session.Entry} (hperform : s.nextMessage timeout = (.ok (some m), s₁))
    (hjournal : journal s (.nextMessage timeout) = [e]) (he : e.delivered? = some m)
    (hoptions : s₁.options = s.options)
    (hstep : Session.Ledger.Step s.options.maxPending s.ledger e s₁.ledger)
    (hyields : s.demux.Yields (Session.received [e]) s₁.demux) :
    IsTrue s (.nextMessage timeout) := by
  refine ⟨?_, ?_, ?_, ?_, ?_⟩ <;> rw [perform, hperform]
  · exact hoptions
  · rw [hjournal]
    exact .single hstep
  · rw [hjournal]
    exact hyields
  · rw [hjournal, Session.delivered, List.filterMap_cons_some he]
    rfl
  · exact List.nil_sublist _

/-- An empty queue sends the caller to the stream. -/
theorem journal_nextMessage_of_receive {timeout : Nat} {m : Message} {s₁ : Session σ}
    (hopen : s.phase.isOpen = true) (hpending : s.pending = [])
    (hr : s.receive (s.now + timeout) false = (.ok (some m), s₁)) :
    journal s (.nextMessage timeout) = [.handed m] := by
  simp [journal, hopen, Session.nextMessageJournal, hpending, hr]

/-- The one call that hands out messages. It receives one only if none is kept. -/
theorem isTrue_nextMessage (s : Session σ) (timeout : Nat) : IsTrue s (.nextMessage timeout) := by
  cases hopen : s.phase.isOpen with
  | false =>
    have hperform : s.nextMessage timeout = (.error .notOpen, s) := by
      simp [Session.nextMessage, Session.whenOpen, hopen]
    exact isTrue_nextMessage_of_nothing hperform (by simp) (by simp [journal, hopen])
      (.quiet rfl rfl rfl)
  | true =>
    cases hpending : s.pending with
    | cons m rest =>
      have hperform : s.nextMessage timeout = (.ok (some m), { s with pending := rest }) := by
        simp [Session.nextMessage, Session.whenOpen, hopen, hpending]
      have hjournal : journal s (.nextMessage timeout) = [.served m] := by
        simp [journal, hopen, Session.nextMessageJournal, hpending]
      refine isTrue_nextMessage_of_some hperform hjournal rfl rfl ?_ .nil
      rw [Session.ledger, hpending]
      exact .served
    | nil =>
      have hperform : s.nextMessage timeout = s.receive (s.now + timeout) false := by
        simp [Session.nextMessage, Session.whenOpen, hopen, hpending]
      rcases hr : s.receive (s.now + timeout) false with ⟨e | _ | m, s₁⟩
      · refine isTrue_nextMessage_of_nothing (hperform.trans hr) (by simp) ?_
          (Session.follows_receive hr (by simp))
        simp [journal, hopen, Session.nextMessageJournal, hpending, hr]
      · refine isTrue_nextMessage_of_nothing (hperform.trans hr) (by simp) ?_
          (Session.follows_receive hr (by simp))
        simp [journal, hopen, Session.nextMessageJournal, hpending, hr]
      · have hjournal := journal_nextMessage_of_receive hopen hpending hr
        obtain ⟨hoptions, hseq, hledger, hyields⟩ := Session.receive_eq_some hr
        refine isTrue_nextMessage_of_some (hperform.trans hr) hjournal rfl hoptions ?_ hyields
        rw [hledger, Session.ledger, hpending]
        exact .handed hseq

/-- **The journal of every call is true.** -/
theorem isTrue (s : Session σ) (call : Call) : IsTrue s call := by
  cases call with
  | establish => exact .of_follows (Session.follows_establish s) rfl rfl
  | close => exact .of_follows (.quiet rfl rfl rfl) rfl rfl
  | nextMessage timeout => exact isTrue_nextMessage s timeout
  | send data => exact .of_follows (Session.follows_send s data) rfl rfl
  | poll poll => exact isTrue_poll s poll
  | setConfig items layers => exact isTrue_setConfig s items layers
  | sendBatch batch => exact .of_follows (Session.follows_sendBatch s batch) rfl rfl
  | getConfig layer keys => exact .of_follows (Session.follows_getConfig s layer keys) rfl rfl
  | reset r => exact .of_follows (Session.follows_reset s r) rfl rfl
  | setBaudRate baud => exact .of_follows (Session.follows_setBaudRate baud s) rfl rfl
  | abort => exact .of_follows (.quiet rfl rfl rfl) rfl rfl
  | resume => exact .of_follows (.quiet rfl rfl rfl) rfl rfl

end Call

namespace Session

variable {σ : Type} [Link σ]

/-- Whatever is cut from the first bytes that are read is received. -/
theorem receive_of_arrived {s : Session σ} {deadline : Nat} {data : List UInt8} {link : σ}
    {m : Message} {demux : Stream.Demux} (hempty : s.demux.next? = none)
    (hwait : s.aborted = false) (hread : Link.read s.link = (.ok data, link))
    (hnext : (s.demux.add data).next? = some (m, demux)) :
    s.receive deadline false = (.ok (some m), { s with link, demux }) := by
  rw [receive]
  split
  · next h => rw [hempty] at h; cases h
  · rw [if_neg (by simp), if_neg (by simp [hwait])]
    split
    · next h => rw [hread] at h; cases h
    · next h =>
      rw [hread] at h
      cases h
      rw [receive]
      simp only [hnext]

/-! ### Several calls -/

/-- Uses the session for one call after the other. -/
def performAll : List Call → Session σ → List Reply × Session σ
  | [], s => ([], s)
  | call :: rest, s =>
    ((call.perform s).1 :: (performAll rest (call.perform s).2).1,
      (performAll rest (call.perform s).2).2)

/-- The journal of all the calls. -/
def journalAll : List Call → Session σ → List Entry
  | [], _ => []
  | call :: rest, s => call.journal s ++ journalAll rest (call.perform s).2

/-- The journals of calls in order are booked on one ledger. Each call begins where the one before
it ended, with the options unchanged. -/
theorem run_journalAll (calls : List Call) (s : Session σ) :
    Ledger.Run s.options.maxPending s.ledger (journalAll calls s)
      (performAll calls s).2.ledger := by
  induction calls generalizing s with
  | nil => exact .nil
  | cons call rest ih =>
    have hcall := Call.isTrue s call
    exact hcall.run.append (hcall.options ▸ ih (call.perform s).2)

/-- All calls together receive what the stream gives. -/
theorem yields_journalAll (calls : List Call) (s : Session σ) :
    s.demux.Yields (received (journalAll calls s)) (performAll calls s).2.demux := by
  induction calls generalizing s with
  | nil => exact .nil
  | cons call rest ih =>
    rw [journalAll, received_append]
    exact (Call.isTrue s call).yields.append (ih (call.perform s).2)

theorem delivered_journalAll (calls : List Call) (s : Session σ) :
    (performAll calls s).1.flatMap Reply.delivered = delivered (journalAll calls s) := by
  induction calls generalizing s with
  | nil => rfl
  | cons call rest ih =>
    rw [performAll, journalAll, List.flatMap_cons, delivered_append, ih,
      (Call.isTrue s call).delivered]

theorem answered_journalAll (calls : List Call) (s : Session σ) :
    ((performAll calls s).1.flatMap Reply.answers).Sublist (answered (journalAll calls s)) := by
  induction calls generalizing s with
  | nil => exact List.Sublist.refl _
  | cons call rest ih =>
    rw [performAll, journalAll, List.flatMap_cons, answered_append]
    exact (Call.isTrue s call).answered.append (ih _)

/-- The books of a session that was used from the start are in order. -/
structure Accounts (limit : Nat) (journal : List Entry) (replies : List Reply)
    (s : Session σ) : Prop where
  /-- What is received is what the stream gives. -/
  produced : Stream.Demux.Yields {} (received journal) s.demux
  /-- What is received is numbered from 1 on. -/
  numbered : (received journal).map (fun m => m.seq.toNat)
    = List.range' 1 (received journal).length
  /-- The journal misses nothing that the stream was cut into. -/
  complete : s.demux.seq.toNat = (received journal).length
  /-- Everything received is in one place. -/
  placed : (received journal).Perm (replies.flatMap Reply.delivered ++ answered journal
    ++ confirmed journal ++ dropped journal ++ s.pending)
  /-- What ended a poll was an answer to it or its refusal. -/
  answers : ∀ poll m, .answered poll m ∈ journal → poll.classify m ≠ .unrelated
  /-- What polls answered to the caller ended a poll. -/
  replied : (replies.flatMap Reply.answers).Sublist (answered journal)
  /-- What a configuration write took is a verdict on one of its messages. -/
  verdicts : ∀ m, .confirmed m ∈ journal →
    ∃ accepted, m.acknowledgement? = some ⟨accepted, .cfgValset⟩
  /-- The session keeps what the journal says. -/
  queue : queueAfter journal [] = s.pending
  /-- What is dropped is the oldest message of a queue that is full. -/
  drops : ∀ before m after, journal = before ++ .dropped m :: after →
    limit ≤ (queueAfter before []).length ∧ (queueAfter before []).head? = some m
  /-- The caller gets messages in the order of their numbers. -/
  ordered : (replies.flatMap Reply.delivered).Pairwise fun m₁ m₂ => m₁.seq < m₂.seq

/-- **The stream loses, doubles and reorders nothing.** -/
theorem accounts_of_calls (name : String) (options : Options) (link : σ) (calls : List Call)
    (hfew : (received (journalAll calls { name, options, link })).length < UInt32.size) :
    Accounts options.maxPending (journalAll calls { name, options, link })
      (performAll calls { name, options, link }).1
      (performAll calls { name, options, link }).2 := by
  have hrun := run_journalAll calls { name, options, link }
  have hproduced := yields_journalAll calls { name, options, link }
  have hdelivered := delivered_journalAll calls { name, options, link }
  have hreplied := answered_journalAll calls { name, options, link }
  generalize journalAll calls { name, options, link } = journal at *
  generalize performAll calls { name, options, link } = outcome at *
  have hzero : (0 : UInt32).toNat = 0 := rfl
  have hempty : ({ name, options, link } : Session σ).ledger = ⟨[], 0⟩ := rfl
  rw [hempty] at hrun
  obtain ⟨hnumbered, hcomplete⟩ := hrun.seq_received (by simpa only [hzero, Nat.zero_add])
  simp only [hzero, Nat.zero_add] at hnumbered hcomplete
  have hsublist : (delivered journal).Sublist (received journal) :=
    (List.sublist_append_left _ _).trans hrun.sublist
  -- numbers from 1 on without a wrap-around are in order, and so are those of any part of them
  have hsorted : (received journal).Pairwise fun m₁ m₂ => m₁.seq < m₂.seq := by
    have h : ((received journal).map fun m => m.seq.toNat).Pairwise (· < ·) := by
      rw [hnumbered]
      exact List.pairwise_lt_range'
    exact (List.pairwise_map.mp h).imp UInt32.lt_iff_toNat_lt.mpr
  exact {
    produced := hproduced
    numbered := hnumbered
    complete := hcomplete
    placed := by rw [hdelivered]; exact hrun.perm
    replied := hreplied
    answers := fun _ _ => hrun.classify_of_mem
    verdicts := fun _ => hrun.acknowledgement_of_mem
    queue := hrun.queue_eq.symm
    drops := by
      rintro before m after rfl
      exact hrun.of_dropped
    ordered := by rw [hdelivered]; exact hsorted.sublist hsublist }

/-! ### A queue that is full

The receiver sends the end of an epoch three times, and its version before the last one. A poll of
the version keeps the first two of them, and the queue has room for one. -/

/-- The end of an epoch, as the message with some number. -/
def bareEpoch (seq : UInt32) : Message := ⟨.ubx, Frame.encode ⟨⟨0x01, 0x61⟩, []⟩, seq⟩

/-- The version, as the message with some number. -/
def bareVersion (seq : UInt32) : Message := ⟨.ubx, Frame.encode ⟨.monVer, []⟩, seq⟩

/-- What the receiver sends, all at once. -/
def threeEpochs : List UInt8 :=
  [bareEpoch 1, bareEpoch 2, bareVersion 3, bareEpoch 4].flatMap Message.data

/-- A session that keeps one message. -/
def ofThreeEpochs : Session Script where
  name := ""
  options := { detect := false, maxPending := 1 }
  link := { incoming := [⟨0, .data threeEpochs⟩] }

/-- The version is asked for, and then two messages are. -/
def versionFirst : List Call :=
  [.establish, .poll { id := .monVer }, .nextMessage 0, .nextMessage 0]

/-- The session while it polls. -/
def pollingThreeEpochs (link : Script) (demux : Demux) (pending : List Message) : Session Script :=
  { ofThreeEpochs with link, demux, pending, phase := .busy }

/-- The poll drops the first message, keeps the second one and leaves the fourth. -/
theorem exists_poll_ofThreeEpochs : ∃ link demux demux',
    exchange { id := .monVer } (pollingThreeEpochs ofThreeEpochs.link {} [])
        = (.ok ⟨bareVersion 3, false⟩, pollingThreeEpochs link demux [bareEpoch 2])
      ∧ exchangeJournal { id := .monVer } (pollingThreeEpochs ofThreeEpochs.link {} [])
        = [.kept (bareEpoch 1), .dropped (bareEpoch 1), .kept (bareEpoch 2),
          .answered { id := .monVer } (bareVersion 3)]
      ∧ demux.next? = some (bareEpoch 4, demux') := by
  obtain ⟨d₁, d₂, d₃, d₄, h₁, h₂, h₃, h₄⟩ : ∃ d₁ d₂ d₃ d₄ : Demux,
      (({} : Demux).add threeEpochs).next? = some (bareEpoch 1, d₁)
        ∧ d₁.next? = some (bareEpoch 2, d₂) ∧ d₂.next? = some (bareVersion 3, d₃)
        ∧ d₃.next? = some (bareEpoch 4, d₄) := ⟨_, _, _, _, rfl, rfl, rfl, rfl⟩
  obtain ⟨sent, read, hput, hread, hnow, hlater⟩ : ∃ sent read : Script,
      putPoll { id := .monVer } (pollingThreeEpochs ofThreeEpochs.link {} [])
          = (.ok (), pollingThreeEpochs sent {} [])
        ∧ Link.read sent = (.ok threeEpochs, read) ∧ sent.now = 0 ∧ read.now = 0 :=
    ⟨_, _, rfl, rfl, rfl, rfl⟩
  -- all bytes are there after the first read, so what follows is cut from the buffer
  have hfirst (deadline : Nat) : (pollingThreeEpochs sent {} []).receive deadline false
      = (.ok (some (bareEpoch 1)), pollingThreeEpochs read d₁ []) :=
    receive_of_arrived rfl rfl hread h₁
  have hsecond (deadline : Nat) : (pollingThreeEpochs read d₁ [bareEpoch 1]).receive deadline false
      = (.ok (some (bareEpoch 2)), pollingThreeEpochs read d₂ [bareEpoch 1]) :=
    receive_of_next? h₂ deadline false
  have hthird (deadline : Nat) : (pollingThreeEpochs read d₂ [bareEpoch 2]).receive deadline false
      = (.ok (some (bareVersion 3)), pollingThreeEpochs read d₃ [bareEpoch 2]) :=
    receive_of_next? h₃ deadline false
  -- the second message takes the place of the first one
  have hkeep₁ : (pollingThreeEpochs read d₁ []).keep (bareEpoch 1)
      = pollingThreeEpochs read d₁ [bareEpoch 1] := rfl
  have hkeep₂ : (pollingThreeEpochs read d₂ [bareEpoch 1]).keep (bareEpoch 2)
      = pollingThreeEpochs read d₂ [bareEpoch 2] := rfl
  have htime (demux : Demux) (pending : List Message) :
      (pollingThreeEpochs read demux pending).now ≤ sent.now + millis 2000 := by
    show read.now ≤ _
    rw [hlater]
    exact Nat.zero_le _
  have hstart : (pollingThreeEpochs sent {} []).now ≤ sent.now + millis 2000 :=
    Nat.le_add_right _ _
  have hwait : awaitAnswer { id := .monVer } (sent.now + millis 2000)
      (pollingThreeEpochs sent {} [])
      = (.ok (some ⟨bareVersion 3, false⟩), pollingThreeEpochs read d₃ [bareEpoch 2]) := by
    rw [awaitAnswer_of_unrelated hstart (hfirst _) rfl, hkeep₁,
      awaitAnswer_of_unrelated (htime _ _) (hsecond _) rfl, hkeep₂,
      awaitAnswer_of_answer (htime _ _) (hthird _) rfl]
  refine ⟨read, d₃, d₄, exchange_of_awaitAnswer (by decide) hput hwait, ?_, h₄⟩
  rw [exchangeJournal_of_awaitAnswer (by decide) hput hwait]
  show awaitAnswerJournal _ (sent.now + millis 2000) _ = _
  have hunrelated (seq : UInt32) : Poll.classify { id := .monVer } (bareEpoch seq) = .unrelated :=
    rfl
  have hanswer : Poll.classify { id := .monVer } (bareVersion 3) = .answer := rfl
  rw [awaitAnswerJournal_of_some (Nat.not_lt.mpr hstart) (hfirst _), hunrelated]
  dsimp only
  rw [hkeep₁, awaitAnswerJournal_of_some (Nat.not_lt.mpr (htime _ _)) (hsecond _), hunrelated]
  dsimp only
  rw [hkeep₂, awaitAnswerJournal_of_some (Nat.not_lt.mpr (htime _ _)) (hthird _), hanswer]
  rfl

/-- Every message of this run has its place: one was dropped, one served from the queue, one
answered the poll and one was handed out. -/
theorem accounts_ofThreeEpochs :
    journalAll versionFirst ofThreeEpochs
        = [.kept (bareEpoch 1), .dropped (bareEpoch 1), .kept (bareEpoch 2),
          .answered { id := .monVer } (bareVersion 3), .served (bareEpoch 2), .handed (bareEpoch 4)]
      ∧ (received (journalAll versionFirst ofThreeEpochs)).length < UInt32.size
      ∧ Accounts 1 (journalAll versionFirst ofThreeEpochs)
        (performAll versionFirst ofThreeEpochs).1 (performAll versionFirst ofThreeEpochs).2 := by
  obtain ⟨link, demux, demux', hexchange, hpoll, hnext⟩ := exists_poll_ofThreeEpochs
  -- the session between the calls is named, so that no later step computes the earlier ones again
  obtain ⟨ready, hready⟩ : ∃ s : Session Script, s = { ofThreeEpochs with phase := .ready } :=
    ⟨_, rfl⟩
  obtain ⟨polled, hpolled⟩ : ∃ s : Session Script,
      s = { pollingThreeEpochs link demux [bareEpoch 2] with phase := .ready } := ⟨_, rfl⟩
  obtain ⟨served, hserved⟩ : ∃ s : Session Script,
      s = { pollingThreeEpochs link demux [] with phase := .ready } := ⟨_, rfl⟩
  have hestablish : Call.journal ofThreeEpochs .establish = []
      ∧ (Call.establish.perform ofThreeEpochs).2 = ready := ⟨rfl, hready.symm⟩
  have hversion : Call.journal ready (.poll { id := .monVer })
        = [.kept (bareEpoch 1), .dropped (bareEpoch 1), .kept (bareEpoch 2),
          .answered { id := .monVer } (bareVersion 3)]
      ∧ ((Call.poll { id := .monVer }).perform ready).2 = polled := by
    rw [hready, hpolled]
    refine ⟨hpoll, ?_⟩
    show (whileBusy { ofThreeEpochs with phase := .ready } (exchange { id := .monVer })).2 = _
    have hrun : exchange { id := .monVer } { ofThreeEpochs with phase := .busy }
        = (.ok ⟨bareVersion 3, false⟩, pollingThreeEpochs link demux [bareEpoch 2]) := hexchange
    rw [whileBusy, hrun]
    rfl
  have hfirst : Call.journal polled (.nextMessage 0) = [.served (bareEpoch 2)]
      ∧ ((Call.nextMessage 0).perform polled).2 = served := by
    rw [hserved, hpolled]
    exact ⟨rfl, rfl⟩
  have hsecond : Call.journal served (.nextMessage 0) = [.handed (bareEpoch 4)] := by
    have hopen : served.phase.isOpen = true := by rw [hserved]; rfl
    have hempty : served.pending = [] := by rw [hserved]; rfl
    have hleft : served.demux.next? = some (bareEpoch 4, demux') := by rw [hserved]; exact hnext
    exact Call.journal_nextMessage_of_receive hopen hempty (receive_of_next? hleft _ _)
  have hjournal : journalAll versionFirst ofThreeEpochs
      = [.kept (bareEpoch 1), .dropped (bareEpoch 1), .kept (bareEpoch 2),
        .answered { id := .monVer } (bareVersion 3), .served (bareEpoch 2),
        .handed (bareEpoch 4)] := by
    simp only [versionFirst, journalAll, hestablish, hversion, hfirst, hsecond]
    rfl
  have hfew : (received (journalAll versionFirst ofThreeEpochs)).length < UInt32.size := by
    rw [hjournal]
    decide
  exact ⟨hjournal, hfew, accounts_of_calls _ _ _ _ hfew⟩

end Session
end GnssLink
