import GnssLink.Session.Poll
/-!
# GnssLink.Proofs.Session.Ledger

**A journal of messages and the books it keeps.** Every message of a session's stream is received
once and from then on has its place: the caller's hands, a poll, a configuration write, the queue of
kept messages, or nowhere if the full queue dropped it. An `Entry` says what became of one
message, and a `Ledger` is what entries are booked on: the queue and the number of the last message.

Design points:

* `Ledger.Step` is the whole law. Messages are numbered in the order in which they are
  received; the queue is served and dropped from at its front; what is received goes to the
  caller only past an empty queue.
* So nothing is lost (`Ledger.Run.perm`), and what leaves the queue does so in the order in which it
  was received (`Ledger.Run.sublist`).
-/

namespace GnssLink.Session

open GnssLink.Stream (Message)

/-- What became of a message. -/
inductive Entry where
  /-- It was received for the caller. -/
  | handed (m : Message)
  /-- The caller took it from the queue. -/
  | served (m : Message)
  /-- It was received and ended the poll. -/
  | answered (poll : Poll) (m : Message)
  /-- It was received as the verdict on a configuration message. -/
  | confirmed (m : Message)
  /-- It was received and put into the queue. -/
  | kept (m : Message)
  /-- The queue was full and gave it up. -/
  | dropped (m : Message)

namespace Entry

/-- The message that was received. -/
def received? : Entry → Option Message
  | handed m | answered _ m | confirmed m | kept m => some m
  | served _ | dropped _ => none

/-- The message that the caller got. -/
def delivered? : Entry → Option Message
  | handed m | served m => some m
  | _ => none

/-- The message that ended a poll. -/
def answered? : Entry → Option Message
  | answered _ m => some m
  | _ => none

/-- The poll that was ended, and the message that ended it. -/
def turn? : Entry → Option (Poll × Message)
  | answered poll m => some (poll, m)
  | _ => none

/-- The message that was a verdict on a configuration message. -/
def confirmed? : Entry → Option Message
  | confirmed m => some m
  | _ => none

/-- The message that was given up. -/
def dropped? : Entry → Option Message
  | dropped m => some m
  | _ => none

/-- The queue after an entry. -/
def requeue (queue : List Message) : Entry → List Message
  | kept m => queue ++ [m]
  | served _ | dropped _ => queue.tail
  | handed _ | answered _ _ | confirmed _ => queue

end Entry

/-- The messages received in the course of a journal. -/
def received (journal : List Entry) : List Message := journal.filterMap Entry.received?

theorem received_append (journal more : List Entry) :
    received (journal ++ more) = received journal ++ received more :=
  List.filterMap_append ..

/-- The messages that the caller got. -/
def delivered (journal : List Entry) : List Message := journal.filterMap Entry.delivered?

theorem delivered_append (journal more : List Entry) :
    delivered (journal ++ more) = delivered journal ++ delivered more :=
  List.filterMap_append ..

/-- The messages that ended polls. -/
def answered (journal : List Entry) : List Message := journal.filterMap Entry.answered?

theorem answered_append (journal more : List Entry) :
    answered (journal ++ more) = answered journal ++ answered more :=
  List.filterMap_append ..

/-- The polls that were ended, each with the message that ended it. -/
def turns (journal : List Entry) : List (Poll × Message) := journal.filterMap Entry.turn?

theorem turns_append (journal more : List Entry) :
    turns (journal ++ more) = turns journal ++ turns more :=
  List.filterMap_append ..

/-- A poll is ended by one message, so the two ways to list them agree. -/
theorem answered_eq_map_turns (journal : List Entry) :
    answered journal = (turns journal).map Prod.snd := by
  induction journal with
  | nil => rfl
  | cons e rest ih =>
    cases e with
    | answered poll m => exact congrArg (m :: ·) ih
    | _ => exact ih

/-- A turn stands for an entry in the journal. -/
theorem mem_turns_iff {journal : List Entry} {poll : Poll} {m : Message} :
    (poll, m) ∈ turns journal ↔ .answered poll m ∈ journal := by
  constructor
  · intro h
    obtain ⟨e, he, hturn⟩ := List.mem_filterMap.mp h
    cases e <;> cases hturn
    exact he
  · intro h
    exact List.mem_filterMap.mpr ⟨_, h, rfl⟩

/-- The messages that were verdicts on configuration messages. -/
def confirmed (journal : List Entry) : List Message := journal.filterMap Entry.confirmed?

/-- The messages given up. -/
def dropped (journal : List Entry) : List Message := journal.filterMap Entry.dropped?

/-- The queue that a journal leaves. -/
def queueAfter (journal : List Entry) (queue : List Message) : List Message :=
  journal.foldl Entry.requeue queue

/-- What entries are booked on. -/
structure Ledger where
  /-- The messages kept, the oldest first. -/
  queue : List Message
  /-- The number of the last message received. -/
  last : UInt32

namespace Ledger

/-- The entries that may be made where the queue holds `limit` messages before it drops one. -/
inductive Step (limit : Nat) : Ledger → Entry → Ledger → Prop where
  | handed {last : UInt32} {m : Message} (next : m.seq = last + 1) :
      Step limit ⟨[], last⟩ (.handed m) ⟨[], m.seq⟩
  | served {m : Message} {queue : List Message} {last : UInt32} :
      Step limit ⟨m :: queue, last⟩ (.served m) ⟨queue, last⟩
  | answered {queue : List Message} {last : UInt32} {poll : Poll} {m : Message}
      (next : m.seq = last + 1) (related : poll.classify m ≠ .unrelated) :
      Step limit ⟨queue, last⟩ (.answered poll m) ⟨queue, m.seq⟩
  | confirmed {queue : List Message} {last : UInt32} {m : Message} (next : m.seq = last + 1)
      (verdict : ∃ accepted, m.acknowledgement? = some ⟨accepted, .cfgValset⟩) :
      Step limit ⟨queue, last⟩ (.confirmed m) ⟨queue, m.seq⟩
  | kept {queue : List Message} {last : UInt32} {m : Message} (next : m.seq = last + 1) :
      Step limit ⟨queue, last⟩ (.kept m) ⟨queue ++ [m], m.seq⟩
  | dropped {m : Message} {queue : List Message} {last : UInt32}
      (full : limit ≤ (m :: queue).length) :
      Step limit ⟨m :: queue, last⟩ (.dropped m) ⟨queue, last⟩

/-- Several entries in order. -/
inductive Run (limit : Nat) : Ledger → List Entry → Ledger → Prop where
  | nil {l : Ledger} : Run limit l [] l
  | cons {l l₁ l₂ : Ledger} {e : Entry} {journal : List Entry} (step : Step limit l e l₁)
      (run : Run limit l₁ journal l₂) : Run limit l (e :: journal) l₂

namespace Run

variable {limit : Nat} {l l₁ l₂ : Ledger} {journal more : List Entry} {e : Entry}

theorem single (h : Step limit l e l₁) : Run limit l [e] l₁ := .cons h .nil

theorem append (h : Run limit l journal l₁) (hmore : Run limit l₁ more l₂) :
    Run limit l (journal ++ more) l₂ := by
  induction h with
  | nil => exact hmore
  | cons step _ ih => exact .cons step (ih hmore)

theorem of_append (h : Run limit l (journal ++ more) l₂) :
    ∃ l₁, Run limit l journal l₁ ∧ Run limit l₁ more l₂ := by
  induction journal generalizing l with
  | nil => exact ⟨l, .nil, h⟩
  | cons e rest ih =>
    obtain _ | ⟨step, run⟩ := h
    obtain ⟨l₁, hrest, hmore⟩ := ih run
    exact ⟨l₁, .cons step hrest, hmore⟩

/-- The queue can be told from the journal alone. -/
theorem queue_eq (h : Run limit l journal l₁) : l₁.queue = queueAfter journal l.queue := by
  induction h with
  | nil => rfl
  | cons step _ ih =>
    rw [ih]
    cases step <;> rfl

/-- Messages are received with consecutive numbers. -/
theorem seq_received (h : Run limit l journal l₁)
    (hfew : l.last.toNat + (received journal).length < UInt32.size) :
    (received journal).map (fun m => m.seq.toNat)
        = List.range' (l.last.toNat + 1) (received journal).length
      ∧ l₁.last.toNat = l.last.toNat + (received journal).length := by
  induction h with
  | nil => exact ⟨rfl, rfl⟩
  | @cons l l₁ l₂ e journal step _ ih =>
    -- an entry receives the message that is next, or none and leaves the number as it is
    have hstep : (e.received? = none ∧ l₁.last = l.last)
        ∨ ∃ m, e.received? = some m ∧ m.seq = l.last + 1 ∧ l₁.last = m.seq := by
      cases step with
      | handed next => exact .inr ⟨_, rfl, next, rfl⟩
      | served => exact .inl ⟨rfl, rfl⟩
      | answered next _ => exact .inr ⟨_, rfl, next, rfl⟩
      | confirmed next _ => exact .inr ⟨_, rfl, next, rfl⟩
      | kept next => exact .inr ⟨_, rfl, next, rfl⟩
      | dropped _ => exact .inl ⟨rfl, rfl⟩
    unfold received at *
    rcases hstep with ⟨hnone, hlast⟩ | ⟨m, hsome, hseq, hlast⟩
    · rw [List.filterMap_cons_none hnone] at hfew ⊢
      rw [← hlast] at hfew ⊢
      exact ih hfew
    · rw [List.filterMap_cons_some hsome] at hfew ⊢
      rw [List.length_cons] at hfew ⊢
      have hnext : m.seq.toNat = l.last.toNat + 1 := by
        rw [hseq, UInt32.toNat_add]
        exact Nat.mod_eq_of_lt (show l.last.toNat + 1 < UInt32.size by omega)
      rw [hlast, hnext] at ih
      obtain ⟨hseqs, hfinal⟩ := ih (by omega)
      refine ⟨?_, by omega⟩
      rw [List.map_cons, hseqs, hnext, List.range'_succ]

/-- **Nothing is lost and nothing doubled.** -/
theorem perm (h : Run limit l journal l₁) :
    (l.queue ++ received journal).Perm (delivered journal ++ answered journal
      ++ confirmed journal ++ dropped journal ++ l₁.queue) := by
  -- counted message by message, an entry moves one from the left side to one place on the right
  rw [List.perm_iff_count]
  intro m
  induction h with
  | nil => simp [received, delivered, answered, confirmed, dropped]
  | cons step _ ih =>
    cases step <;>
      simp only [received, delivered, answered, confirmed, dropped, List.filterMap_cons,
        Entry.received?, Entry.delivered?, Entry.answered?, Entry.confirmed?, Entry.dropped?,
        List.count_append, List.count_cons, List.count_nil] at ih ⊢ <;>
      omega

/-- **Order is kept**: what the caller got and what is left in the queue come in the order in which
they were received. -/
theorem sublist (h : Run limit l journal l₁) :
    (delivered journal ++ l₁.queue).Sublist (l.queue ++ received journal) := by
  induction h with
  | nil => simp [received, delivered]
  | cons step _ ih =>
    cases step with
    | handed _ => exact ih.cons_cons _
    | served => exact ih.cons_cons _
    | answered _ _ => exact ih.trans ((List.sublist_cons_self _ _).append_left _)
    | confirmed _ _ => exact ih.trans ((List.sublist_cons_self _ _).append_left _)
    | kept _ =>
      rw [List.append_assoc] at ih
      exact ih
    | dropped _ => exact ih.cons _

/-- What is dropped is the oldest message of a queue that is full. -/
theorem of_dropped {m : Message} (h : Run limit l (journal ++ .dropped m :: more) l₂) :
    limit ≤ (queueAfter journal l.queue).length
      ∧ (queueAfter journal l.queue).head? = some m := by
  obtain ⟨l₁, hjournal, _ | ⟨step, -⟩⟩ := of_append h
  rw [← hjournal.queue_eq]
  cases step with
  | dropped full => exact ⟨full, rfl⟩

/-- Every entry was allowed on some ledger, which is all that is needed to tell what it says of its
message. -/
theorem step_of_mem (h : Run limit l journal l₁) (he : e ∈ journal) :
    ∃ l l₁, Step limit l e l₁ := by
  induction h with
  | nil => cases he
  | cons step _ ih =>
    rcases List.mem_cons.mp he with rfl | he
    · exact ⟨_, _, step⟩
    · exact ih he

theorem classify_of_mem {poll : Poll} {m : Message} (h : Run limit l journal l₁)
    (he : .answered poll m ∈ journal) : poll.classify m ≠ .unrelated := by
  obtain ⟨_, _, step⟩ := h.step_of_mem he
  cases step with
  | answered _ related => exact related

theorem acknowledgement_of_mem {m : Message} (h : Run limit l journal l₁)
    (he : .confirmed m ∈ journal) :
    ∃ accepted, m.acknowledgement? = some ⟨accepted, .cfgValset⟩ := by
  obtain ⟨_, _, step⟩ := h.step_of_mem he
  cases step with
  | confirmed _ verdict => exact verdict

end Run
end Ledger
end GnssLink.Session
