import Mathlib.Tactic.ByContra
import GnssLink.Proofs.Session.Delivery
/-!
# GnssLink.Proofs.Session.Polling

**What a poll makes of a stream.** Only the messages that answer or refuse a poll matter to it
(`Poll.observation`). As long as one of these is to come, and comes in time, the wait for an answer
takes it (`Session.awaitAnswer_of_expects`); where none is to come, the wait ends with nothing
(`Session.awaitAnswer_of_quiet`), whatever else arrives meanwhile.
-/

namespace GnssLink

open GnssLink.Stream (Message)

namespace Poll

/-- What ends the poll, as something that messages say. -/
def observation (poll : Poll) : Observation (List UInt8) where
  see m := if poll.classify m = .unrelated then none else some m.data
  see_of_seq _ _ := rfl
  see_garbage data seq := by simp [classify, Message.acknowledgement?, Message.id?]

variable {poll : Poll} {m : Message}

theorem see_of_unrelated (h : poll.classify m = .unrelated) : poll.observation.see m = none :=
  if_pos h

theorem see_of_related (h : poll.classify m ≠ .unrelated) : poll.observation.see m = some m.data :=
  if_neg h

theorem unrelated_of_see (h : poll.observation.see m = none) : poll.classify m = .unrelated := by
  by_contra hrelated
  rw [see_of_related hrelated] at h
  cases h

/-- What is neither asked for nor an acknowledgement of that has nothing to do with the poll. -/
theorem classify_of_other (hid : m.id? ≠ some poll.id)
    (hack : ∀ a, m.acknowledgement? = some a → a.id ≠ poll.id) :
    poll.classify m = .unrelated := by
  have hanswer : ¬(m.id? = some poll.id ∧ poll.minSize ≤ m.payload.length) := fun h => hid h.1
  rw [classify, if_neg hanswer]
  cases hm : m.acknowledgement? with
  | none => rfl
  | some a => exact if_pos (hack a hm)

/-- Polls are answered in the protocol in which they are made. -/
theorem protocol_of_related (h : poll.classify m ≠ .unrelated) : m.protocol = .ubx := by
  cases hprotocol : m.protocol with
  | ubx => rfl
  | _ => simp [classify, Message.acknowledgement?, Message.id?, hprotocol] at h

end Poll

namespace Session

variable {σ : Type} {s s₁ s₂ : Session σ}

/-! ### What polling keeps -/

/-- Neither what the session is nor what it knows of its receiver changed. -/
structure Kept (s s' : Session σ) : Prop where
  name : s'.name = s.name
  options : s'.options = s.options
  phase : s'.phase = s.phase
  version : s'.version = s.version

theorem Kept.refl (s : Session σ) : Kept s s := ⟨rfl, rfl, rfl, rfl⟩

theorem Kept.trans (h : Kept s s₁) (h' : Kept s₁ s₂) : Kept s s₂ :=
  ⟨h'.name.trans h.name, h'.options.trans h.options, h'.phase.trans h.phase,
    h'.version.trans h.version⟩

theorem kept_keep (s : Session σ) (m : Message) : Kept s (s.keep m) := by
  unfold keep
  split <;> exact ⟨rfl, rfl, rfl, rfl⟩

variable [Link σ] {poll : Poll} {deadline : Nat}

/-- Receiving changes the link, the stream and nothing else. -/
theorem kept_receive {attempted : Bool} {found : Option Message}
    (h : s.receive deadline attempted = (.ok found, s₁)) : Kept s s₁ := by
  fun_induction receive s deadline attempted with
  | case1 s attempted m demux hnext =>
    cases h
    exact ⟨rfl, rfl, rfl, rfl⟩
  | case2 s attempted hnext hlate =>
    cases h
    exact .refl _
  | case3 => cases h
  | case4 => cases h
  | case5 s attempted hnext hwait hab data link hread _ _ ih =>
    have hread' : Kept s { s with link, demux := s.demux.add data } := ⟨rfl, rfl, rfl, rfl⟩
    exact hread'.trans (ih h)

theorem kept_awaitAnswer {answer : Option Answer}
    (h : awaitAnswer poll deadline s = (.ok answer, s₁)) : Kept s s₁ := by
  fun_induction awaitAnswer poll deadline s with
  | case1 =>
    cases h
    exact .refl _
  | case2 => cases h
  | case3 s _ s' hr | case4 s _ m s' hr | case5 s _ m s' hr =>
    cases h
    exact kept_receive hr
  | case6 s _ m s' hr _ _ ih => exact ((kept_receive hr).trans (kept_keep s' m)).trans (ih h)

/-! ### Waiting for an answer -/

variable {β : Type} {o : Observation β} {Serves : List UInt8 → List Coming → σ → Prop}
  {timeout limit : Nat} {past : List UInt8} {coming : List Coming}

/-- As long as what ends the poll is owed, a wait for it until the limit or longer takes it. -/
theorem awaitAnswer_of_expects {data : List UInt8} {rest : List (List UInt8)}
    (hdelivers : Delivers Serves)
    (h : Expects poll.observation Serves timeout (data :: rest) limit past coming s)
    (hlimit : limit ≤ deadline) (htime : s.now < deadline) :
    ∃ m past' coming' s',
      awaitAnswer poll deadline s = (.ok (some ⟨m, poll.classify m == .refusal⟩), s')
        ∧ poll.classify m ≠ .unrelated ∧ m.data = data
        ∧ Expects poll.observation Serves timeout rest limit past' coming' s' := by
  have hreceive {s s₁ : Session σ} {past : List UInt8} {coming : List Coming}
      {res : Except SessionError (Option Message)} (hr : s.receive deadline false = (res, s₁))
      (h : Expects poll.observation Serves timeout (data :: rest) limit past coming s)
      (htime : s.now < deadline) :=
    receive_of_expects hdelivers hr h (List.cons_ne_nil _ _) hlimit htime
  -- the first message to be received that ends the poll is the one that is owed
  have htaken {s s₁ : Session σ} {past : List UInt8} {coming : List Coming} {m : Message}
      (hr : s.receive deadline false = (.ok (some m), s₁))
      (h : Expects poll.observation Serves timeout (data :: rest) limit past coming s)
      (htime : s.now < deadline) (hrelated : poll.classify m ≠ .unrelated) :
      m.data = data ∧ ∃ past' coming',
        Expects poll.observation Serves timeout rest limit past' coming' s₁ := by
    obtain ⟨_, rest', past', coming', hsome, howed, hrest, -, -⟩ := hreceive hr h htime
    cases hsome
    rw [Poll.see_of_related hrelated] at howed
    cases howed
    exact ⟨rfl, past', coming', hrest⟩
  fun_induction awaitAnswer poll deadline s generalizing past coming with
  | case1 s hlate => omega
  | case2 s _ e s₁ hr =>
    obtain ⟨_, _, _, _, hsome, _⟩ := hreceive hr h htime
    cases hsome
  | case3 s _ s₁ hr =>
    obtain ⟨_, _, _, _, hsome, _⟩ := hreceive hr h htime
    cases hsome
  | case4 s _ m s₁ hr hclass | case5 s _ m s₁ hr hclass =>
    have hrelated : poll.classify m ≠ .unrelated := by simp [hclass]
    obtain ⟨hdata, past₁, coming₁, hrest⟩ := htaken hr h htime hrelated
    exact ⟨m, past₁, coming₁, s₁, by rw [hclass]; rfl, hrelated, hdata, hrest⟩
  | case6 s _ m s₁ hr hclass _ ih =>
    obtain ⟨_, rest', past₁, coming₁, hsome, howed, hrest, hnow, -⟩ := hreceive hr h htime
    cases hsome
    rw [Poll.see_of_unrelated hclass] at howed
    cases howed
    exact ih (hrest.keep m) (by rwa [now_keep])

/-- Where nothing is owed, what is received says nothing. -/
theorem receive_of_quiet {attempted : Bool} {res : Except SessionError (Option Message)}
    (hdelivers : Delivers Serves) (hr : s.receive deadline attempted = (res, s₁))
    (h : Expects o Serves timeout [] limit past coming s) :
    ∃ found past' coming', res = .ok found ∧ (∀ m, found = some m → o.see m = none)
      ∧ Expects o Serves timeout [] limit past' coming' s₁ := by
  fun_induction receive s deadline attempted generalizing past coming with
  | case1 s attempted m demux hnext =>
    cases hr
    -- a message takes what it says from what is owed, and that is nothing
    obtain ⟨rest, hnothing, hrest⟩ := h.of_next? hnext
    obtain ⟨hsee, rfl⟩ := List.append_eq_nil_iff.mp hnothing.symm
    refine ⟨some m, past, coming, rfl, ?_, hrest⟩
    intro m' hm
    cases hm
    exact Option.toList_eq_nil_iff.mp hsee
  | case2 s attempted hnext hlate =>
    cases hr
    refine ⟨none, past, coming, rfl, ?_, h⟩
    intro m hm
    cases hm
  | case3 s attempted hnext hwait hab => exact absurd (h.active ▸ hab) Bool.false_ne_true
  | case4 s attempted hnext hwait hab f link hread =>
    obtain ⟨_, _, _, _, hok, _⟩ := hdelivers h.serves
    rw [hread] at hok
    cases hok
  | case5 s attempted hnext hwait hab data link hread _ _ ih =>
    obtain ⟨data', rest, link', rfl, hok, hserves, hclock, -⟩ := hdelivers h.serves
    rw [hread] at hok
    cases hok
    exact ih hr (h.of_read hserves hclock)

/-- Where nothing that ends the poll is to come, the wait for it ends with nothing. -/
theorem awaitAnswer_of_quiet (hdelivers : Delivers Serves)
    (h : Expects poll.observation Serves timeout [] limit past coming s) :
    ∃ past' coming' s', awaitAnswer poll deadline s = (.ok none, s')
      ∧ Expects poll.observation Serves timeout [] limit past' coming' s' := by
  -- the wait ends when the time is over: what comes until then is unrelated and kept
  fun_induction awaitAnswer poll deadline s generalizing past coming with
  | case1 s hlate => exact ⟨past, coming, s, rfl, h⟩
  | case2 s _ e s₁ hr =>
    obtain ⟨_, _, _, hok, -⟩ := receive_of_quiet hdelivers hr h
    cases hok
  | case3 s _ s₁ hr =>
    obtain ⟨_, past', coming', hok, -, hrest⟩ := receive_of_quiet hdelivers hr h
    exact ⟨past', coming', s₁, rfl, hrest⟩
  | case4 s _ m s₁ hr hclass | case5 s _ m s₁ hr hclass =>
    obtain ⟨_, _, _, hok, hsee, -⟩ := receive_of_quiet hdelivers hr h
    cases hok
    have hunrelated := Poll.unrelated_of_see (hsee m rfl)
    rw [hclass] at hunrelated
    cases hunrelated
  | case6 s _ m s₁ hr hclass _ ih =>
    obtain ⟨_, past', coming', _, -, hrest⟩ := receive_of_quiet hdelivers hr h
    exact ih (hrest.keep m)

end Session
end GnssLink
