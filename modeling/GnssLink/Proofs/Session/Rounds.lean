import GnssLink.Session.Configure
/-!
# GnssLink.Proofs.Session.Rounds

**One round of each loop of a session.** The loops carry with them why they end, which stands in the
way of rewriting. These equations say what one round does and nothing else.
-/

namespace GnssLink.Session

open GnssLink.Config (Item Layer)
open GnssLink.Stream (Message)

variable {σ : Type} [Link σ]

theorem receive_eq (s : Session σ) (deadline : Nat) (attempted : Bool) :
    s.receive deadline attempted =
      match s.demux.next? with
      | some (m, demux) => (.ok (some m), { s with demux })
      | none =>
        if attempted ∧ deadline ≤ s.now then (.ok none, s)
        else if s.aborted then (.error .aborted, s)
        else
          match Link.read s.link with
          | (.error f, link) => { s with link }.fail f
          | (.ok data, link) =>
            { s with link, demux := s.demux.add data }.receive deadline true := by
  rw [receive]
  cases s.demux.next? with
  | some found => rfl
  | none =>
    dsimp only
    split
    · rfl
    · split
      · rfl
      · split
        · next h =>
          rewrite [h]
          rfl
        · next h =>
          rewrite [h]
          rfl

/-- A message that the stream has is received at once. -/
theorem receive_of_next? {s : Session σ} {m : Message} {demux : Stream.Demux}
    (hnext : s.demux.next? = some (m, demux)) (deadline : Nat) (attempted : Bool) :
    s.receive deadline attempted = (.ok (some m), { s with demux }) := by
  rw [receive_eq, hnext]

theorem awaitAnswer_eq (poll : Poll) (deadline : Nat) (s : Session σ) :
    awaitAnswer poll deadline s =
      if deadline < s.now then (.ok none, s)
      else
        match s.receive deadline false with
        | (.error e, s) => (.error e, s)
        | (.ok none, s) => (.ok none, s)
        | (.ok (some m), s) =>
          match poll.classify m with
          | .answer => (.ok (some ⟨m, false⟩), s)
          | .refusal => (.ok (some ⟨m, true⟩), s)
          | .unrelated => awaitAnswer poll deadline (s.keep m) := by
  rw [awaitAnswer]
  split
  · rfl
  · split
    · next h =>
      rewrite [h]
      rfl
    · next h =>
      rewrite [h]
      rfl
    · next h =>
      dsimp only
      rewrite [h]
      rfl

section Await

variable {poll : Poll} {deadline : Nat} {s s₁ : Session σ} {m : Message}

/-- A message that answers the poll ends the wait for it. -/
theorem awaitAnswer_of_answer (htime : s.now ≤ deadline)
    (hr : s.receive deadline false = (.ok (some m), s₁)) (hclass : poll.classify m = .answer) :
    awaitAnswer poll deadline s = (.ok (some ⟨m, false⟩), s₁) := by
  rw [awaitAnswer_eq, if_neg (Nat.not_lt.mpr htime), hr]
  simp only [hclass]

/-- Any other message is kept, and the wait goes on. -/
theorem awaitAnswer_of_unrelated (htime : s.now ≤ deadline)
    (hr : s.receive deadline false = (.ok (some m), s₁)) (hclass : poll.classify m = .unrelated) :
    awaitAnswer poll deadline s = awaitAnswer poll deadline (s₁.keep m) := by
  rw [awaitAnswer_eq, if_neg (Nat.not_lt.mpr htime), hr]
  simp only [hclass]

/-- The answer to a poll may be there when the poll is sent. -/
theorem exchange_of_receive {s₂ : Session σ} (hsome : poll.attempts ≠ 0)
    (hput : putPoll poll s = (.ok (), s₁))
    (hr : s₁.receive (s₁.now + poll.timeout) false = (.ok (some m), s₂))
    (hclass : poll.classify m = .answer) : exchange poll s = (.ok ⟨m, false⟩, s₂) :=
  exchange_of_awaitAnswer hsome hput (awaitAnswer_of_answer (Nat.le_add_right _ _) hr hclass)

end Await

theorem awaitAcks_eq (expected acked deadline : Nat) (s : Session σ) :
    awaitAcks expected acked deadline s =
      if expected ≤ acked then (.ok (), s)
      else if deadline < s.now then (.error (.configTimeout acked expected), s)
      else
        match s.receive deadline false with
        | (.error e, s) => (.error e, s)
        | (.ok none, s) => (.error (.configTimeout acked expected), s)
        | (.ok (some m), s) =>
          if m.acknowledgement? = some ⟨true, .cfgValset⟩ then
            awaitAcks expected (acked + 1) (s.now + s.options.ackTimeout) s
          else if m.acknowledgement? = some ⟨false, .cfgValset⟩ then
            (.error (.configRejected (acked + 1) expected), s)
          else awaitAcks expected acked deadline (s.keep m) := by
  rw [awaitAcks]
  split
  · rfl
  · split
    · rfl
    · split
      · next h =>
        rewrite [h]
        rfl
      · next h =>
        rewrite [h]
        rfl
      · next h =>
        dsimp only
        rewrite [h]
        rfl

theorem readPages_eq (layer : Layer) (keys : List UInt32) (position : UInt16) (s : Session σ) :
    readPages layer keys position s =
      (exchange (pagePoll layer position keys) s).andThen fun answer s =>
        if answer.refused then
          if position = 0 then (.error (.configRejected 1 1), s) else (.ok [], s)
        else
          match Config.decode (answer.message.payload.drop Config.Query.headSize) with
          | .error e => (.error (.codec e), s)
          | .ok items =>
            if items.length < Config.Query.pageSize then (.ok items, s)
            else
              (readPages layer keys (nextPosition position) s).andThen fun more s =>
                (.ok (items ++ more), s) := by
  rw [readPages]
  split
  · next h =>
    rewrite [h]
    rfl
  · next h =>
    dsimp only
    rewrite [h]
    rfl

end GnssLink.Session
