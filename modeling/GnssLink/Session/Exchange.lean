import GnssLink.Session.Basic
import GnssLink.Session.Poll
/-!
# GnssLink.Session.Exchange

**Polling.** A poll is sent and the stream read until the poll is answered or the time is over; then
it is sent again, as often as the poll says. What else is read meanwhile is kept for later.

An answer is always taken from the backlog (`backlog_lt_of_exchange`), which is why a series of
polls that goes on as long as there are answers comes to an end.
-/

namespace GnssLink

open GnssLink.Stream (Message)

namespace Session

variable {σ : Type} [Link σ]

/-- Reads until the poll is answered, or answers `none` at the deadline. -/
def awaitAnswer (poll : Poll) (deadline : Nat) (s : Session σ) : Outcome σ (Option Answer) :=
  if deadline < s.now then (.ok none, s)
  else
    match h : s.receive deadline false with
    | (.error e, s) => (.error e, s)
    | (.ok none, s) => (.ok none, s)
    | (.ok (some m), s') =>
      match poll.classify m with
      | .answer => (.ok (some ⟨m, false⟩), s')
      | .refusal => (.ok (some ⟨m, true⟩), s')
      | .unrelated =>
        have _ := backlog_lt_of_receive h
        awaitAnswer poll deadline (s'.keep m)
termination_by s.backlog
decreasing_by simpa only [backlog_keep]

/-- Sends the poll, unless it only waits. -/
def putPoll (poll : Poll) (s : Session σ) : Outcome σ Unit :=
  if poll.waitOnly then (.ok (), s) else s.put poll.frame

/-- Sends the poll and awaits its answer, up to `n` times. -/
def tryPoll (poll : Poll) : Nat → Session σ → Outcome σ (Option Answer)
  | 0, s => (.ok none, s)
  | n + 1, s =>
    (putPoll poll s).andThen fun _ s =>
      (awaitAnswer poll (s.now + poll.timeout) s).andThen fun answer s =>
        match answer with
        | some answer => (.ok (some answer), s)
        | none => tryPoll poll n s

/-- Polls until there is an answer or no attempt is left. -/
def exchange (poll : Poll) (s : Session σ) : Outcome σ Answer :=
  (tryPoll poll poll.attempts s).andThen fun answer s =>
    match answer with
    | some answer => (.ok answer, s)
    | none => (.error (.pollTimeout poll.id.name poll.attempts), s)

/-- Polls a message. -/
def poll (s : Session σ) (poll : Poll) : Outcome σ Answer :=
  s.whenOpen fun s => s.whileBusy (exchange poll)

/-! ### The first attempt -/

/-- Where the first attempt is answered there is no other one. -/
theorem exchange_of_awaitAnswer {poll : Poll} {s s₁ s₂ : Session σ} {answer : Answer}
    (hsome : poll.attempts ≠ 0) (hput : putPoll poll s = (.ok (), s₁))
    (hwait : awaitAnswer poll (s₁.now + poll.timeout) s₁ = (.ok (some answer), s₂)) :
    exchange poll s = (.ok answer, s₂) := by
  obtain ⟨more, hmore⟩ := Nat.exists_eq_succ_of_ne_zero hsome
  rw [exchange, hmore, tryPoll, hput, Outcome.andThen_ok, hwait]
  rfl

/-- A poll without an attempt times out where it stands. -/
theorem exchange_of_attempts_eq_zero {poll : Poll} (hnone : poll.attempts = 0) (s : Session σ) :
    exchange poll s = (.error (.pollTimeout poll.id.name 0), s) := by
  rw [exchange, hnone]
  rfl

/-! ### Answers come from the backlog -/

theorem backlog_le_of_receive {s s' : Session σ} {deadline : Nat} {attempted : Bool}
    {r : Except SessionError (Option Message)} (hr : ∃ m, r = .ok m)
    (h : s.receive deadline attempted = (r, s')) : s'.backlog ≤ s.backlog := by
  fun_induction receive s deadline attempted with
  | case1 s attempted m demux hm =>
    cases h
    have := Stream.Demux.length_lt_of_next? hm
    simp only [backlog]
    omega
  | case2 => cases h; exact Nat.le_refl _
  | case3 =>
    cases h
    obtain ⟨_, hr⟩ := hr
    cases hr
  | case4 =>
    cases h
    obtain ⟨_, hr⟩ := hr
    cases hr
  | case5 s attempted hm hwait hab data link hread _ _ ih =>
    have := Link.supply_of_read hread
    have := ih h
    simp only [backlog, Stream.Demux.add, List.length_append] at this ⊢
    omega

/-- Waiting in vain takes nothing that could be an answer. -/
theorem backlog_le_of_awaitAnswer_none {poll : Poll} {s s' : Session σ} {deadline : Nat}
    (h : awaitAnswer poll deadline s = (.ok none, s')) : s'.backlog ≤ s.backlog := by
  fun_induction awaitAnswer poll deadline s with
  | case1 => cases h; exact Nat.le_refl _
  | case2 => cases h
  | case3 s _ _ hr => cases h; exact backlog_le_of_receive ⟨_, rfl⟩ hr
  | case4 => cases h
  | case5 => cases h
  | case6 s _ m s₁ hr _ _ ih =>
    have := ih h
    have := backlog_lt_of_receive hr
    rw [backlog_keep] at *
    omega

/-- An answer was received after the wait began. -/
theorem backlog_lt_of_awaitAnswer {poll : Poll} {s s' : Session σ} {deadline : Nat}
    {answer : Answer} (h : awaitAnswer poll deadline s = (.ok (some answer), s')) :
    s'.backlog < s.backlog := by
  fun_induction awaitAnswer poll deadline s with
  | case1 => cases h
  | case2 => cases h
  | case3 => cases h
  | case4 s _ m s₁ hr => cases h; exact backlog_lt_of_receive hr
  | case5 s _ m s₁ hr => cases h; exact backlog_lt_of_receive hr
  | case6 s _ m s₁ hr _ _ ih =>
    have := ih h
    have := backlog_lt_of_receive hr
    rw [backlog_keep] at *
    omega

theorem backlog_putPoll_le (poll : Poll) (s : Session σ) :
    (putPoll poll s).2.backlog ≤ s.backlog := by
  unfold putPoll
  split
  · exact Nat.le_refl _
  · exact backlog_put_le s poll.frame

theorem backlog_lt_of_tryPoll {poll : Poll} {n : Nat} {s s' : Session σ} {answer : Answer}
    (h : tryPoll poll n s = (.ok (some answer), s')) : s'.backlog < s.backlog := by
  induction n generalizing s with
  | zero => cases h
  | succ n ih =>
    have hput := backlog_putPoll_le poll s
    unfold tryPoll at h
    rcases hp : putPoll poll s with ⟨e | u, s₁⟩
    · simp only [hp, Outcome.andThen_error] at h
      cases h
    · simp only [hp, Outcome.andThen_ok] at h hput
      rcases ha : awaitAnswer poll (s₁.now + poll.timeout) s₁ with ⟨e | _ | a, s₂⟩
      · simp only [ha, Outcome.andThen_error] at h
        cases h
      · simp only [ha, Outcome.andThen_ok] at h
        have := backlog_le_of_awaitAnswer_none ha
        have := ih h
        omega
      · simp only [ha, Outcome.andThen_ok] at h
        cases h
        have := backlog_lt_of_awaitAnswer ha
        omega

/-- An answer is cut from the backlog. -/
theorem backlog_lt_of_exchange {poll : Poll} {s s' : Session σ} {answer : Answer}
    (h : exchange poll s = (.ok answer, s')) : s'.backlog < s.backlog := by
  unfold exchange at h
  rcases ht : tryPoll poll poll.attempts s with ⟨e | _ | a, s₁⟩
  · simp only [ht, Outcome.andThen_error] at h
    cases h
  · simp only [ht, Outcome.andThen_ok] at h
    cases h
  · simp only [ht, Outcome.andThen_ok] at h
    cases h
    exact backlog_lt_of_tryPoll ht

end Session
end GnssLink
