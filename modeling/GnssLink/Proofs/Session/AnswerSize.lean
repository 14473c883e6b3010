import GnssLink.Proofs.Session.Pages
import GnssLink.Proofs.Stream.UbxFrames
/-!
# GnssLink.Proofs.Session.AnswerSize

**How long the answers to polls are** (`Session.sizes_of_answers`). The message that was asked for
answers a poll if it is long enough. A positive acknowledgement answers it whatever was asked for,
and two bytes are all that it has to say. So the polls whose answers are never too short are those
that do not take it for an answer or ask for no more than two bytes, and those that are never made
(`Poll.isSized_iff`).

The poll of the version asks for more and takes it, so a receiver that acknowledges the poll and
tells no version is found.
-/

namespace GnssLink

open GnssLink.Stream (Demux Message Segment)

/-! ### What ends a poll -/

/-- What ended a poll, and how. -/
inductive Poll.EndedBy (poll : Poll) : Answer → Prop where
  | response {m : Message} (named : m.id? = some poll.id)
      (long : poll.minSize ≤ m.payload.length) : poll.EndedBy ⟨m, false⟩
  | accepted {m : Message} (taken : poll.ackAnswers = true)
      (positive : m.acknowledgement? = some ⟨true, poll.id⟩) : poll.EndedBy ⟨m, false⟩
  | refused {m : Message} (negative : m.acknowledgement? = some ⟨false, poll.id⟩) :
      poll.EndedBy ⟨m, true⟩

/-- An acknowledgement names a message in two bytes. -/
theorem Stream.Message.two_le_of_acknowledgement {m : Message} {a : Acknowledgement}
    (h : m.acknowledgement? = some a) : 2 ≤ m.payload.length := by
  unfold acknowledgement? at h
  split at h
  · next cls num rest _ hpayload =>
    rw [hpayload, List.length_cons, List.length_cons]
    omega
  · cases h

namespace Poll

variable {poll : Poll} {m : Message}

theorem classify_eq_answer_iff :
    poll.classify m = .answer ↔ (m.id? = some poll.id ∧ poll.minSize ≤ m.payload.length)
      ∨ (poll.ackAnswers = true ∧ m.acknowledgement? = some ⟨true, poll.id⟩) := by
  unfold classify
  by_cases hresponse : m.id? = some poll.id ∧ poll.minSize ≤ m.payload.length
  · rw [if_pos hresponse]
    exact iff_of_true rfl (.inl hresponse)
  · rw [if_neg hresponse]
    cases hack : m.acknowledgement? with
    | none => simp [hresponse]
    | some a =>
      obtain ⟨accepted, id⟩ := a
      by_cases hid : id = poll.id
      · cases accepted <;> simp [hresponse, hid]
      · simp [hresponse, hid]

theorem acknowledgement_of_refusal (h : poll.classify m = .refusal) :
    m.acknowledgement? = some ⟨false, poll.id⟩ := by
  unfold classify at h
  by_cases hresponse : m.id? = some poll.id ∧ poll.minSize ≤ m.payload.length
  · rw [if_pos hresponse] at h
    cases h
  · rw [if_neg hresponse] at h
    cases hack : m.acknowledgement? with
    | none => simp [hack] at h
    | some a =>
      obtain ⟨accepted, id⟩ := a
      by_cases hid : id = poll.id
      · cases accepted with
        | false => rw [hid]
        | true => cases hanswers : poll.ackAnswers <;> simp [hack, hid, hanswers] at h
      · simp [hack, hid] at h

/-- What is not unrelated ends the poll one way or the other. -/
theorem endedBy_of_classify {answer : Answer}
    (h : poll.classify answer.message = if answer.refused then .refusal else .answer) :
    poll.EndedBy answer := by
  obtain ⟨m, refused⟩ := answer
  cases refused with
  | true => exact .refused (acknowledgement_of_refusal h)
  | false =>
    rcases classify_eq_answer_iff.mp h with ⟨hid, hlong⟩ | ⟨htaken, hack⟩
    · exact .response hid hlong
    · exact .accepted htaken hack

end Poll

namespace Session

variable {σ : Type} [Link σ]

theorem endedBy_of_exchange {poll : Poll} {s s₁ : Session σ} {answer : Answer}
    (h : exchange poll s = (.ok answer, s₁)) : poll.EndedBy answer :=
  Poll.endedBy_of_classify (classify_of_exchange h)

theorem endedBy_of_poll {s : Session σ} {poll : Poll} {answer : Answer}
    (h : (s.poll poll).1 = .ok answer) : poll.EndedBy answer := by
  unfold Session.poll whenOpen at h
  split at h
  · rcases hexchange : exchange poll { s with phase := .busy } with ⟨r, s₁⟩
    unfold whileBusy at h
    simp only [hexchange] at h
    subst h
    exact endedBy_of_exchange hexchange
  · cases h

/-- A poll without an attempt has no answer. -/
theorem poll_ne_ok_of_attempts_eq_zero {poll : Poll} (hnone : poll.attempts = 0) (s : Session σ)
    {answer : Answer} : (s.poll poll).1 ≠ .ok answer := by
  intro h
  unfold Session.poll whenOpen at h
  split at h
  · simp only [whileBusy, exchange_of_attempts_eq_zero hnone] at h
    cases h
  · cases h

end Session

/-! ### Polls whose answers are long enough -/

/-- Over every link, what answers the poll is as long as it asks for. -/
def Poll.IsSized (poll : Poll) : Prop :=
  ∀ (σ : Type) [Link σ] (s : Session σ) (answer : Answer), (s.poll poll).1 = .ok answer →
    answer.refused = false → poll.minSize ≤ answer.message.payload.length

/-- The frame that acknowledges a poll. -/
def Poll.ackFrame (poll : Poll) : Frame := ⟨.ackAck, [poll.id.cls, poll.id.num]⟩

/-- A session that has read nothing but the acknowledgement of the poll. -/
def Poll.acknowledged (poll : Poll) : Session Script where
  name := ""
  options := {}
  link := {}
  demux := { buffer := poll.ackFrame.encode }
  phase := .ready

namespace Poll

/-- The acknowledgement comes out of the stream as it is. -/
theorem next?_acknowledged (poll : Poll) :
    ∃ m demux, poll.acknowledged.demux.next? = some (m, demux)
      ∧ m.acknowledgement? = some ⟨true, poll.id⟩ ∧ m.payload.length = 2 := by
  have hfits : poll.ackFrame.payload.length ≤ Stream.Ubx.maxPayload := by
    show 2 ≤ Stream.Ubx.maxPayload
    decide
  have hbuffer : poll.acknowledged.demux.buffer = Stream.joined [.ubx poll.ackFrame hfits] :=
    (List.append_nil _).symm
  obtain ⟨seq, demux, hnext, -⟩ := Demux.next?_of_joined hbuffer (.singleton _)
  obtain ⟨hid, hpayload⟩ :=
    Message.eq_of_data (m := ⟨.ubx, poll.ackFrame.encode, seq⟩) (f := poll.ackFrame) rfl rfl
  refine ⟨_, demux, hnext, ?_, ?_⟩
  · show Message.acknowledgement? ⟨.ubx, poll.ackFrame.encode, seq⟩ = _
    rw [Message.acknowledgement?, hid, hpayload]
    rfl
  · show (Message.payload ⟨.ubx, poll.ackFrame.encode, seq⟩).length = 2
    rw [hpayload]
    rfl

/-- Where acknowledgements are answers this one is, if the poll is made at all. -/
theorem answer_acknowledged {poll : Poll} (htaken : poll.ackAnswers = true)
    (hsome : poll.attempts ≠ 0) :
    ∃ m, (poll.acknowledged.poll poll).1 = .ok ⟨m, false⟩ ∧ m.payload.length = 2 := by
  obtain ⟨m, demux, hnext, hack, hlength⟩ := poll.next?_acknowledged
  obtain ⟨sent, hput, hdemux⟩ : ∃ sent,
      Session.putPoll poll { poll.acknowledged with phase := .busy } = (.ok (), sent)
        ∧ sent.demux = poll.acknowledged.demux := by
    unfold Session.putPoll
    split
    · exact ⟨_, rfl, rfl⟩
    · exact ⟨_, rfl, rfl⟩
  have hreceive := Session.receive_of_next? (hdemux ▸ hnext) (sent.now + poll.timeout) false
  have hexchange := Session.exchange_of_receive hsome hput hreceive
    (classify_eq_answer_iff.mpr (.inr ⟨htaken, hack⟩))
  refine ⟨m, ?_, hlength⟩
  have hopen : poll.acknowledged.phase.isOpen = true := rfl
  simp only [Session.poll, Session.whenOpen, if_pos hopen, Session.whileBusy, hexchange]

/-- Exactly these polls get no answers that are too short. The last ones, which are not even made,
get no answers at all. -/
theorem isSized_iff {poll : Poll} :
    poll.IsSized ↔ poll.ackAnswers = false ∨ poll.minSize ≤ 2 ∨ poll.attempts = 0 := by
  constructor
  · intro hsized
    cases htaken : poll.ackAnswers with
    | false => exact .inl rfl
    | true =>
      by_cases hnone : poll.attempts = 0
      · exact .inr (.inr hnone)
      · obtain ⟨m, hanswer, hlength⟩ := answer_acknowledged htaken hnone
        have hlong : poll.minSize ≤ m.payload.length :=
          hsized Script poll.acknowledged ⟨m, false⟩ hanswer rfl
        rw [hlength] at hlong
        exact .inr (.inl hlong)
  · intro hpoll σ _ s answer hanswer hgiven
    cases Session.endedBy_of_poll hanswer with
    | response named long => exact long
    | accepted taken positive =>
      have htwo := Message.two_le_of_acknowledgement positive
      rcases hpoll with hnone | hshort | hnever
      · rw [hnone] at taken
        cases taken
      · exact Nat.le_trans hshort htwo
      · exact absurd hanswer (Session.poll_ne_ok_of_attempts_eq_zero hnever s)
    | refused negative => cases hgiven

end Poll

namespace Session

variable {σ : Type} [Link σ]

/-! ### Finding the receiver -/

/-- The receiver is found exactly if the poll of its version is ended. -/
theorem turns_probe (s : Session σ) :
    (∃ s', probe s = (.ok true, s')
        ∧ ∃ m, turns (exchangeJournal (versionPoll s.options) s) = [(versionPoll s.options, m)])
      ∨ turns (exchangeJournal (versionPoll s.options) s) = []
        ∧ ((∃ s', probe s = (.ok false, s')) ∨ ∃ e s', probe s = (.error e, s')) := by
  rw [turns_exchangeJournal]
  unfold probe
  rcases exchange (versionPoll s.options) s with ⟨e | answer, s₁⟩
  · refine .inr ⟨rfl, ?_⟩
    cases e with
    | pollTimeout name attempts => exact .inl ⟨s₁, rfl⟩
    | _ => exact .inr ⟨_, s₁, rfl⟩
  · left
    cases hrefused : answer.refused with
    | true => exact ⟨s₁, by simp [hrefused], answer.message, rfl⟩
    | false => exact ⟨_, by simp [hrefused]; rfl, answer.message, rfl⟩

/-- A search ends with the first answer to its poll, and without any it fails. -/
theorem turns_search (candidates : List (Option UInt32)) (s : Session σ) :
    ((search candidates s).1 = .ok ()
        ∧ ∃ m, turns (searchJournal candidates s) = [(versionPoll s.options, m)])
      ∨ ∃ e, (search candidates s).1 = .error e ∧ turns (searchJournal candidates s) = [] := by
  induction candidates generalizing s with
  | nil => exact .inr ⟨_, rfl, rfl⟩
  | cons candidate rest ih =>
    have hswitched := (follows_switchTo candidate s).options
    unfold search searchJournal
    rcases hswitch : switchTo candidate s with ⟨e | _, s₁⟩
    · exact .inr ⟨e, rfl, rfl⟩
    · rw [hswitch] at hswitched
      have hoptions : s₁.options = s.options := hswitched
      have hprobed := (follows_probe s₁).options
      simp only [Outcome.thenTell, Outcome.andThen_ok, turns_append]
      rcases turns_probe s₁ with
          ⟨s₂, hprobe, m, hturns⟩ | ⟨hturns, ⟨s₂, hprobe⟩ | ⟨e, s₂, hprobe⟩⟩ <;>
        rw [hprobe] at hprobed ⊢ <;> rw [hturns]
      · refine .inl ⟨rfl, m, ?_⟩
        rw [hoptions]
        rfl
      · have hrest := ih s₂
        rw [show s₂.options = s.options from hprobed.trans hoptions] at hrest
        exact hrest
      · exact .inr ⟨e, rfl, rfl⟩

theorem turns_detect {s : Session σ} (hdetect : s.options.detect = true) :
    ((detect s).1 = .ok () ∧ ∃ m, turns (detectJournal s) = [(versionPoll s.options, m)])
      ∨ ∃ e, (detect s).1 = .error e ∧ turns (detectJournal s) = [] := by
  have hfixed := (follows_applyFixedRate s).options
  unfold detect detectJournal
  rcases hrate : applyFixedRate s with ⟨e | _, s₁⟩
  · exact .inr ⟨e, rfl, rfl⟩
  · rw [hrate] at hfixed
    have hoptions : s₁.options = s.options := hfixed
    simp only [Outcome.thenTell, Outcome.andThen_ok, hoptions, if_pos hdetect]
    have hsearch := turns_search (candidates s₁) s₁
    rw [hoptions] at hsearch
    exact hsearch

theorem turns_establish {s : Session σ} (hdetect : s.options.detect = true) :
    (s.establish.1 = .ok ()
        ∧ ∃ m, turns (Call.journal s .establish) = [(versionPoll s.options, m)])
      ∨ ∃ e, s.establish.1 = .error e ∧ turns (Call.journal s .establish) = [] := by
  unfold establish Call.journal
  by_cases hclosed : s.phase = .closed
  · rw [if_pos hclosed]
    simp only [if_pos hclosed]
    exact .inr ⟨_, rfl, rfl⟩
  · rw [if_neg hclosed]
    simp only [if_neg hclosed]
    have hfound : ({ s with phase := .detecting } : Session σ).options.detect = true := hdetect
    rcases turns_detect hfound with ⟨hdone, hturns⟩ | ⟨e, hfailed, hturns⟩
    · refine .inl ⟨?_, hturns⟩
      rcases hresult : detect { s with phase := .detecting } with ⟨r, s₁⟩
      rw [hresult] at hdone
      subst hdone
      rfl
    · refine .inr ⟨e, ?_, hturns⟩
      rcases hresult : detect { s with phase := .detecting } with ⟨r, s₁⟩
      rw [hresult] at hfailed
      subst hfailed
      rfl

/-- **An answer is as long as its poll asks for, unless it is an acknowledgement**; and the receiver
is found exactly if its version or an acknowledgement of the poll for it is received. -/
theorem sizes_of_answers (poll : Poll) (s : Session σ) :
    (∀ answer, (s.poll poll).1 = .ok answer → poll.EndedBy answer)
      ∧ (poll.IsSized ↔ poll.ackAnswers = false ∨ poll.minSize ≤ 2 ∨ poll.attempts = 0)
      ∧ (s.options.detect = true →
        (s.establish.1 = .ok ()
            ∧ ∃ m, turns (Call.journal s .establish) = [(versionPoll s.options, m)]
              ∧ (m.id? = some .monVer ∧ 40 ≤ m.payload.length
                ∨ ∃ accepted, m.acknowledgement? = some ⟨accepted, .monVer⟩))
          ∨ ∃ e, s.establish.1 = .error e ∧ turns (Call.journal s .establish) = []) := by
  refine ⟨fun _ => endedBy_of_poll, Poll.isSized_iff, ?_⟩
  intro hdetect
  rcases turns_establish hdetect with ⟨hdone, m, hturns⟩ | hfailed
  · refine .inl ⟨hdone, m, hturns, ?_⟩
    have hmem : .answered (versionPoll s.options) m ∈ Call.journal s .establish := by
      rw [← mem_turns_iff, hturns]
      exact List.mem_singleton_self _
    have hrelated := (Call.isTrue s .establish).run.classify_of_mem hmem
    cases hclass : (versionPoll s.options).classify m with
    | answer =>
      rcases Poll.classify_eq_answer_iff.mp hclass with hversion | ⟨-, hack⟩
      · exact .inl hversion
      · exact .inr ⟨true, hack⟩
    | refusal => exact .inr ⟨false, Poll.acknowledgement_of_refusal hclass⟩
    | unrelated => exact absurd hclass hrelated
  · exact .inr hfailed

/-- A session whose receiver sends no more than the acknowledgement of a poll of its version. -/
def ofBareAck : Session Script where
  name := ""
  options := { detect := false }
  link := { incoming := [⟨0, .data (versionPoll {}).ackFrame.encode⟩] }

/-- The poll of the version asks for forty bytes, and two answer it. -/
theorem exists_short_answer :
    ∃ m, ((performAll [.establish] ofBareAck).2.poll (versionPoll {})).1 = .ok ⟨m, false⟩
      ∧ m.payload.length < (versionPoll {}).minSize := by
  obtain ⟨busy, hbusy⟩ : ∃ s : Session Script, s = { ofBareAck with phase := .busy } := ⟨_, rfl⟩
  obtain ⟨sent, hsent⟩ : ∃ s, s = (putPoll (versionPoll {}) busy).2 := ⟨_, rfl⟩
  have hput : putPoll (versionPoll {}) busy = (.ok (), sent) := by
    rw [hsent, hbusy]
    rfl
  obtain ⟨after, hreceive⟩ : ∃ s, sent.receive (sent.now + (versionPoll {}).timeout) false
      = (.ok (some ⟨.ubx, (versionPoll {}).ackFrame.encode, 1⟩), s) := by
    rw [hsent, hbusy]
    exact ⟨_, receive_of_arrived rfl rfl rfl rfl⟩
  have hexchange := exchange_of_receive (by decide) hput hreceive rfl
  refine ⟨⟨.ubx, (versionPoll {}).ackFrame.encode, 1⟩, ?_, by decide⟩
  rw [hbusy] at hexchange
  exact congrArg Prod.fst hexchange

end Session
end GnssLink
