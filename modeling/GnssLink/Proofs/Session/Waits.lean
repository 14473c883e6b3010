import GnssLink.Proofs.Link.IdleClock
import GnssLink.Proofs.Session.Conduct
import GnssLink.Proofs.Session.Rounds
/-!
# GnssLink.Proofs.Session.Waits

**Waiting is bounded and never cut short** (`Session.waits_of_script`). Time passes in idle reads
only (`IdleClock`), so a wait is measured in these: `Spent k` says that at most `k` of them were
made.

* A wait for one message makes as many idle reads as fit between now and the deadline, and at least
  one (`Session.left`). What a message that comes meanwhile leaves of them is what the next wait
  until the same deadline may make (`Session.Waited`), so the loops around it need no more than one
  wait does.
* A wait that ends with nothing has reached its deadline.
* Each attempt of a poll, and each acknowledgement of a write, starts the wait anew.
-/

namespace GnssLink

open GnssLink.Config (WriteMessage)
open GnssLink.Script (idleTime idleReads waitReads waitTime)
open GnssLink.Stream (Message)

/-- Whether the error says that time is over. -/
def SessionError.isTimeout : SessionError → Bool
  | pollTimeout _ _ | configTimeout _ _ => true
  | fault _ | noBaudRate | notOpen | receiverNotFound _ | aborted | configRejected _ _ | write _
  | codec _ => false

namespace Session

variable {σ : Type} [Link σ] (clock : IdleClock σ)

/-! ### Time spent -/

/-- From one session to the other at most `k` reads found nothing, and all others used up some of
the supply. -/
structure Spent (k : Nat) (s s' : Session σ) : Prop where
  le_now : s.now ≤ s'.now
  now_le : s'.now ≤ s.now + k * idleTime
  reads : clock.reads s'.link + Link.supply s'.link
    ≤ clock.reads s.link + Link.supply s.link + k
  options : s'.options = s.options

namespace Spent

variable {clock} {j k : Nat} {s s₁ s₂ : Session σ}

/-- Where the link is not used no time passes. -/
theorem of_eq (hlink : s₁.link = s.link) (hoptions : s₁.options = s.options) :
    Spent clock 0 s s₁ := by
  have hnow : s₁.now = s.now := congrArg Link.now hlink
  refine ⟨Nat.le_of_eq hnow.symm, ?_, ?_, hoptions⟩
  · rw [hnow]
    exact Nat.le_add_right _ _
  · rw [hlink]
    exact Nat.le_refl _

theorem refl (s : Session σ) : Spent clock 0 s s := of_eq rfl rfl

/-- Idle reads add up. -/
theorem trans (h : Spent clock j s s₁) (hmore : Spent clock k s₁ s₂) :
    Spent clock (j + k) s s₂ := by
  obtain ⟨hle, hmost, hreads, hoptions⟩ := h
  obtain ⟨hle', hmost', hreads', hoptions'⟩ := hmore
  refine ⟨Nat.le_trans hle hle', ?_, by omega, hoptions'.trans hoptions⟩
  rw [Nat.add_mul]
  omega

/-- What takes no time. -/
theorem after (h : Spent clock 0 s s₁) (hmore : Spent clock k s₁ s₂) : Spent clock k s s₂ :=
  Nat.zero_add k ▸ h.trans hmore

/-- No idle read, no time. -/
theorem now_eq (h : Spent clock 0 s s₁) : s₁.now = s.now := by
  have hmost := h.now_le
  rw [Nat.zero_mul, Nat.add_zero] at hmost
  exact Nat.le_antisymm hmost h.le_now

/-- To keep a message takes no time. -/
theorem keep (s : Session σ) (m : Message) : Spent clock 0 s (s.keep m) := by
  unfold Session.keep
  split <;> exact of_eq rfl rfl

/-- To write takes no time, and what the receiver is going to send for it is supply already. -/
theorem put (s : Session σ) (data : List UInt8) : Spent clock 0 s (s.put data).2 := by
  have hclock := clock.write data s.link
  have hsupply := Link.supply_write_le data s.link
  unfold Session.put
  split
  all_goals
    next hwrite =>
    rw [hwrite] at hclock hsupply
    obtain ⟨hnow, hreads⟩ := hclock
    refine ⟨Nat.le_of_eq hnow.symm, Nat.le_of_eq hnow, ?_, rfl⟩
    rw [Nat.add_zero]
    exact Nat.add_le_add hreads hsupply

theorem putAll (frames : List (List UInt8)) (s : Session σ) :
    Spent clock 0 s (Session.putAll frames s).2 := by
  induction frames generalizing s with
  | nil => exact refl s
  | cons data rest ih =>
    have hput : Spent clock 0 s (s.put data).2 := put s data
    unfold Session.putAll
    rcases hr : s.put data with ⟨e | u, s₁⟩
    · rw [hr] at hput
      exact hput
    · rw [hr] at hput
      exact hput.after (ih s₁)

end Spent

/-- All that a read can do: it finds nothing and waits, or it takes no time and uses up some of the
supply, or it fails. -/
theorem spent_read {s : Session σ} {link : σ} {r : Except Fault (List UInt8)}
    (h : Link.read s.link = (r, link)) :
    (r = .ok [] ∧ Link.now link = s.now + idleTime ∧ Spent clock 1 s { s with link })
      ∨ Spent clock 0 s { s with link }
      ∨ (∃ f, r = .error f) ∧ Spent clock 1 s { s with link } := by
  have hpos := Script.idleTime_pos
  obtain ⟨hreads, ⟨hr, hnow, hsupply⟩ | ⟨hnow, hsupply⟩ | ⟨hr, hnow, hsupply⟩⟩ := clock.read h
  · refine .inl ⟨hr, hnow, ⟨?_, ?_, ?_, rfl⟩⟩
    · show Link.now s.link ≤ Link.now link
      omega
    · show Link.now link ≤ Link.now s.link + 1 * idleTime
      omega
    · show clock.reads link + Link.supply link ≤ _
      omega
  · refine .inr (.inl ⟨Nat.le_of_eq hnow.symm, Nat.le_of_eq hnow, ?_, rfl⟩)
    show clock.reads link + Link.supply link ≤ _
    omega
  · refine .inr (.inr ⟨hr, ⟨Nat.le_of_eq hnow.symm, ?_, ?_, rfl⟩⟩)
    · show Link.now link ≤ Link.now s.link + 1 * idleTime
      omega
    · show clock.reads link + Link.supply link ≤ _
      omega

/-- A failed write is no timeout. -/
theorem isTimeout_of_put {data : List UInt8} {s s₁ : Session σ} {e : SessionError}
    (h : s.put data = (.error e, s₁)) : e.isTimeout = false := by
  unfold put at h
  split at h
  · cases h
  · cases h
    rfl

/-! ### One wait -/

/-- How many idle reads a wait until the deadline makes if nothing comes. -/
def left (deadline : Nat) (s : Session σ) : Nat := waitReads (deadline - s.now)

/-- The first read is made however late it is. -/
theorem left_pos (deadline : Nat) (s : Session σ) : 1 ≤ left deadline s := Nat.le_max_left _ _

theorem left_of_now_eq {deadline : Nat} {s s₁ : Session σ} (h : s₁.now = s.now) :
    left deadline s₁ = left deadline s := by
  rw [left, left, h]

/-- A wait that begins now has its whole timeout left. -/
theorem left_from_now (timeout : Nat) (s : Session σ) :
    left (s.now + timeout) s = waitReads timeout := by
  rw [left, Nat.add_sub_cancel_left]

/-- An idle read that ends before the deadline leaves one less. -/
theorem left_of_idle {deadline : Nat} {s s₁ : Session σ} (hnow : s₁.now = s.now + idleTime)
    (htime : s₁.now < deadline) : 1 + left deadline s₁ = left deadline s := by
  have hrest : deadline - s.now = deadline - s₁.now + idleTime := by omega
  have hpos : 0 < idleReads (deadline - s₁.now) := Script.idleReads_pos (Nat.sub_pos_of_lt htime)
  rw [left, left, waitReads, waitReads, hrest, Script.idleReads_add_idleTime]
  omega

/-- How a wait ends that may find something. -/
inductive Waited {α : Type} (deadline : Nat) (s : Session σ) : Outcome σ (Option α) → Prop where
  /-- Something came in time, and the idle reads until then are not left any more. -/
  | found {k : Nat} {a : α} {s' : Session σ} (spent : Spent clock k s s')
      (most : k + left deadline s' ≤ left deadline s)
      (inTime : s.now ≤ deadline → s'.now ≤ deadline) : Waited deadline s (.ok (some a), s')
  /-- Nothing came, and the deadline was reached. -/
  | nothing {k : Nat} {s' : Session σ} (spent : Spent clock k s s') (most : k ≤ left deadline s)
      (late : deadline ≤ s'.now) : Waited deadline s (.ok none, s')
  /-- The wait could not go on. -/
  | error {k : Nat} {e : SessionError} {s' : Session σ} (spent : Spent clock k s s')
      (most : k ≤ left deadline s) (other : e.isTimeout = false) :
      Waited deadline s (.error e, s')

namespace Waited

variable {clock} {α β : Type} {deadline : Nat} {s s₁ : Session σ}

/-- What is waited for after some time that was no more than the deadline allows. -/
theorem after {k : Nat} {outcome : Outcome σ (Option α)} (hspent : Spent clock k s s₁)
    (hmost : k + left deadline s₁ ≤ left deadline s)
    (hinTime : s.now ≤ deadline → s₁.now ≤ deadline) (h : Waited clock deadline s₁ outcome) :
    Waited clock deadline s outcome := by
  cases h with
  | found spent most inTime =>
    exact .found (hspent.trans spent) (by omega) fun htime => inTime (hinTime htime)
  | nothing spent most late => exact .nothing (hspent.trans spent) (by omega) late
  | error spent most other => exact .error (hspent.trans spent) (by omega) other

/-- What took no time. -/
theorem now_after {outcome : Outcome σ (Option α)} (hspent : Spent clock 0 s s₁)
    (h : Waited clock deadline s₁ outcome) : Waited clock deadline s outcome := by
  have hsame : 0 + left deadline s₁ = left deadline s := by
    rw [Nat.zero_add, left_of_now_eq hspent.now_eq]
  refine after hspent ?_ ?_ h
  · exact Nat.le_of_eq hsame
  · intro htime
    rwa [hspent.now_eq]

/-- The time spent, however the wait ended. -/
theorem spent {r : Except SessionError (Option α)} (h : Waited clock deadline s (r, s₁)) :
    ∃ k ≤ left deadline s, Spent clock k s s₁ := by
  cases h with
  | found spent most _ => exact ⟨_, Nat.le_trans (Nat.le_add_right _ _) most, spent⟩
  | nothing spent most _ => exact ⟨_, most, spent⟩
  | error spent most _ => exact ⟨_, most, spent⟩

end Waited

/-- Where nothing is to be cut off a wait that has read ends at its deadline. -/
theorem receive_of_next?_eq_none {deadline : Nat} {s : Session σ} (hnext : s.demux.next? = none)
    (hover : deadline ≤ s.now) : s.receive deadline true = (.ok none, s) := by
  rw [receive_eq, hnext]
  exact if_pos ⟨rfl, hover⟩

/-- **One wait.** The first read takes place even if no time is left. Only an idle read takes time,
and after it there is nothing to be cut off, so a deadline that it reaches ends the wait. -/
theorem waited_receive (s : Session σ) (deadline : Nat) (attempted : Bool) :
    Waited clock deadline s (s.receive deadline attempted) := by
  fun_induction receive s deadline attempted with
  | case1 s attempted m demux hnext =>
    have hspent : Spent clock 0 s { s with demux } := .of_eq rfl rfl
    exact .now_after hspent (.found (.refl _) (Nat.le_of_eq (Nat.zero_add _)) id)
  | case2 s attempted hnext hlate => exact .nothing (.refl s) (Nat.zero_le _) hlate.2
  | case3 s attempted hnext hwait hab => exact .error (.refl s) (Nat.zero_le _) rfl
  | case4 s attempted hnext hwait hab f link hread =>
    have hclosed : Spent clock 0 { s with link } ({ s with link } : Session σ).close :=
      .of_eq rfl rfl
    rcases spent_read clock hread with ⟨hr, -⟩ | hspent | ⟨-, hspent⟩
    · cases hr
    · exact .error (hspent.trans hclosed) (Nat.zero_le _) rfl
    · exact .error (hspent.trans hclosed) (left_pos deadline s) rfl
  | case5 s attempted hnext hwait hab data link hread _ _ ih =>
    have hadded : Spent clock 0 { s with link } { s with link, demux := s.demux.add data } :=
      .of_eq rfl rfl
    rcases spent_read clock hread with ⟨hr, hnow, hspent⟩ | hspent | ⟨⟨f, hr⟩, -⟩
    · -- nothing was read, so there is still nothing to be cut off and only the clock has moved
      cases hr
      have hsame : s.demux.add [] = s.demux := by rw [Stream.Demux.add, List.append_nil]
      rw [hsame] at ih ⊢
      by_cases hover : deadline ≤ Link.now link
      · have hdone := receive_of_next?_eq_none (s := { s with link }) hnext hover
        rw [hdone]
        exact .nothing hspent (left_pos deadline s) hover
      · have htime : Link.now link < deadline := Nat.lt_of_not_le hover
        exact ih.after hspent (Nat.le_of_eq (left_of_idle hnow htime)) fun _ => Nat.le_of_lt htime
    · exact ih.now_after (hspent.after hadded)
    · cases hr

/-- The wait that a receive was, whatever it received. -/
theorem waited_of_receive {deadline : Nat} {s s₁ : Session σ}
    {r : Except SessionError (Option Message)} (hr : s.receive deadline false = (r, s₁)) :
    Waited clock deadline s (r, s₁) := by
  rw [← hr]
  exact waited_receive clock s deadline false

/-! ### Polls -/

/-- A wait for an answer is one wait, however many messages are kept on the way: each is received
with the time that the ones before it left. -/
theorem waited_awaitAnswer (poll : Poll) (deadline : Nat) (s : Session σ) :
    Waited clock deadline s (awaitAnswer poll deadline s) := by
  fun_induction awaitAnswer poll deadline s with
  | case1 s hlate => exact .nothing (.refl s) (Nat.zero_le _) (Nat.le_of_lt hlate)
  | case2 s _ e s₁ hr =>
    cases waited_of_receive clock hr with
    | error spent most other => exact .error spent most other
  | case3 s _ s₁ hr =>
    cases waited_of_receive clock hr with
    | nothing spent most late => exact .nothing spent most late
  | case4 s _ m s₁ hr _ | case5 s _ m s₁ hr _ =>
    cases waited_of_receive clock hr with
    | found spent most inTime => exact .found spent most inTime
  | case6 s _ m s₁ hr _ _ ih =>
    -- what this message left of the time is what the rest of the wait may take
    cases waited_of_receive clock hr with
    | found spent most inTime => exact (ih.now_after (.keep s₁ m)).after spent most inTime

theorem spent_putPoll (poll : Poll) (s : Session σ) : Spent clock 0 s (putPoll poll s).2 := by
  unfold putPoll
  split
  · exact .refl s
  · exact .put s poll.frame

/-- To send a poll may fail, but not for want of time. -/
theorem isTimeout_of_putPoll {poll : Poll} {s s₁ : Session σ} {e : SessionError}
    (h : putPoll poll s = (.error e, s₁)) : e.isTimeout = false := by
  unfold putPoll at h
  split at h
  · cases h
  · exact isTimeout_of_put h

/-- **Each attempt waits its own time**, and a poll without an answer has waited all of them. -/
theorem spent_tryPoll (poll : Poll) (n : Nat) (s : Session σ) :
    ∃ k ≤ n * waitReads poll.timeout, Spent clock k s (tryPoll poll n s).2
      ∧ match (tryPoll poll n s).1 with
        | .ok (some _) => True
        | .ok none => s.now + n * poll.timeout ≤ (tryPoll poll n s).2.now
        | .error e => e.isTimeout = false := by
  -- on the attempts: the one in vain has waited out its timeout before the next one begins
  induction n generalizing s with
  | zero =>
    refine ⟨0, Nat.zero_le _, .refl s, ?_⟩
    show s.now + 0 * poll.timeout ≤ s.now
    rw [Nat.zero_mul]
    exact Nat.le_refl _
  | succ n ih =>
    have hput := spent_putPoll clock poll s
    have hmore : waitReads poll.timeout ≤ (n + 1) * waitReads poll.timeout :=
      Nat.le_mul_of_pos_left _ (Nat.succ_pos n)
    unfold tryPoll
    rcases hp : putPoll poll s with ⟨e | u, s₁⟩
    · rw [hp] at hput
      exact ⟨0, Nat.zero_le _, hput, isTimeout_of_putPoll hp⟩
    · rw [hp] at hput
      have hwait := waited_awaitAnswer clock poll (s₁.now + poll.timeout) s₁
      simp only [Outcome.andThen_ok]
      rcases ha : awaitAnswer poll (s₁.now + poll.timeout) s₁ with ⟨e | _ | answer, s₂⟩
      · rw [ha] at hwait
        cases hwait with
        | error spent most other =>
          rw [left_from_now] at most
          exact ⟨_, Nat.le_trans most hmore, hput.after spent, other⟩
      · rw [ha] at hwait
        cases hwait with
        | nothing spent most late =>
          rw [left_from_now] at most
          obtain ⟨k, hk, hspent, hend⟩ := ih s₂
          simp only [Outcome.andThen_ok]
          refine ⟨_, ?_, (hput.after spent).trans hspent, ?_⟩
          · rw [Nat.succ_mul]
            omega
          · have hnow : s₁.now = s.now := hput.now_eq
            rcases hr : (tryPoll poll n s₂).1 with e | _ | answer
            · rw [hr] at hend
              exact hend
            · rw [hr] at hend
              dsimp only at hend ⊢
              rw [Nat.succ_mul]
              omega
            · trivial
      · obtain ⟨k, hk, hspent⟩ := (ha ▸ hwait).spent
        rw [left_from_now] at hk
        exact ⟨k, Nat.le_trans hk hmore, hput.after hspent, trivial⟩

/-- A poll takes no more than its attempts, and is given up after no less. -/
theorem spent_exchange (poll : Poll) (s : Session σ) :
    ∃ k ≤ poll.attempts * waitReads poll.timeout, Spent clock k s (exchange poll s).2
      ∧ ∀ name n, (exchange poll s).1 = .error (.pollTimeout name n) →
        s.now + poll.attempts * poll.timeout ≤ (exchange poll s).2.now := by
  obtain ⟨k, hk, hspent, hend⟩ := spent_tryPoll clock poll poll.attempts s
  unfold exchange
  rcases ht : tryPoll poll poll.attempts s with ⟨e | _ | answer, s₁⟩
  · rw [ht] at hspent hend
    refine ⟨k, hk, hspent, ?_⟩
    rintro name n ⟨⟩
    cases hend
  · rw [ht] at hspent hend
    exact ⟨k, hk, hspent, fun _ _ _ => hend⟩
  · rw [ht] at hspent
    exact ⟨k, hk, hspent, nofun⟩

/-! ### Configuration writes -/

/-- The times at which a write receives its acknowledgements. -/
def ackTimes (expected acked deadline : Nat) (s : Session σ) : List Nat :=
  if expected ≤ acked then []
  else if deadline < s.now then []
  else
    match h : s.receive deadline false with
    | (.ok (some m), s') =>
      have _ := backlog_lt_of_receive h
      if m.acknowledgement? = some ⟨true, .cfgValset⟩ then
        s'.now :: ackTimes expected (acked + 1) (s'.now + s'.options.ackTimeout) s'
      else if m.acknowledgement? = some ⟨false, .cfgValset⟩ then []
      else ackTimes expected acked deadline (s'.keep m)
    | _ => []
termination_by s.backlog
decreasing_by all_goals simpa only [backlog_keep]

theorem ackTimes_of_some {expected acked deadline : Nat} {s s₁ : Session σ} {m : Message}
    (hmore : ¬expected ≤ acked) (htime : ¬deadline < s.now)
    (hr : s.receive deadline false = (.ok (some m), s₁)) :
    ackTimes expected acked deadline s =
      if m.acknowledgement? = some ⟨true, .cfgValset⟩ then
        s₁.now :: ackTimes expected (acked + 1) (s₁.now + s₁.options.ackTimeout) s₁
      else if m.acknowledgement? = some ⟨false, .cfgValset⟩ then []
      else ackTimes expected acked deadline (s₁.keep m) := by
  rw [ackTimes, if_neg hmore, if_neg htime]
  split
  · next hr' =>
    rw [hr] at hr'
    cases hr'
    rfl
  · next hne => exact absurd hr (hne _ _)

/-- After the deadline no acknowledgement is received any more. -/
theorem ackTimes_of_late {expected acked deadline : Nat} {s : Session σ}
    (hlate : deadline < s.now) :
    ackTimes expected acked deadline s = [] := by
  rw [ackTimes, if_pos hlate, ite_self]

theorem ackTimes_of_nothing {expected acked deadline : Nat} {s s₁ : Session σ}
    (hr : s.receive deadline false = (.ok none, s₁)) : ackTimes expected acked deadline s = [] := by
  rw [ackTimes]
  split
  · rfl
  · split
    · rfl
    · split
      · next hr' =>
        rw [hr] at hr'
        cases hr'
      · rfl

/-- How many idle reads a write makes at most that still has to be acknowledged. -/
def leftForAcks (expected acked deadline : Nat) (s : Session σ) : Nat :=
  if expected ≤ acked then 0
  else left deadline s + (expected - (acked + 1)) * waitReads s.options.ackTimeout

/-- **Each acknowledgement starts the wait anew**, and a write that is not acknowledged in time has
waited since the last one, or else since `mark`. -/
theorem spent_awaitAcks (expected acked deadline mark : Nat) (s : Session σ)
    (hmark : deadline = mark + s.options.ackTimeout) :
    ∃ k ≤ leftForAcks expected acked deadline s,
      Spent clock k s (awaitAcks expected acked deadline s).2
      ∧ ∀ a n, (awaitAcks expected acked deadline s).1 = .error (.configTimeout a n) →
        a = acked + (ackTimes expected acked deadline s).length ∧ n = expected
          ∧ (ackTimes expected acked deadline s).getLastD mark + s.options.ackTimeout
            ≤ (awaitAcks expected acked deadline s).2.now := by
  -- `mark` is where the present wait began: at the last write or the last acknowledgement
  fun_induction awaitAcks expected acked deadline s generalizing mark with
  | case1 acked deadline s hdone =>
    refine ⟨0, Nat.zero_le _, .refl s, ?_⟩
    rintro a n ⟨⟩
  | case2 acked deadline s hmore hlate =>
    refine ⟨0, Nat.zero_le _, .refl s, ?_⟩
    rintro a n ⟨⟩
    rw [ackTimes_of_late hlate]
    exact ⟨rfl, rfl, hmark ▸ Nat.le_of_lt hlate⟩
  | case3 acked deadline s hmore htime e s₁ hr =>
    rw [leftForAcks, if_neg hmore]
    cases waited_of_receive clock hr with
    | error spent most other =>
      refine ⟨_, Nat.le_trans most (Nat.le_add_right _ _), spent, ?_⟩
      rintro a n ⟨⟩
      cases other
  | case4 acked deadline s hmore htime s₁ hr =>
    rw [leftForAcks, if_neg hmore]
    cases waited_of_receive clock hr with
    | nothing spent most late =>
      refine ⟨_, Nat.le_trans most (Nat.le_add_right _ _), spent, ?_⟩
      rintro a n ⟨⟩
      rw [ackTimes_of_nothing hr]
      exact ⟨rfl, rfl, hmark ▸ late⟩
  | case5 acked deadline s hmore htime m s₁ hr _ hack ih =>
    rw [ackTimes_of_some hmore htime hr, if_pos hack, leftForAcks, if_neg hmore]
    cases waited_of_receive clock hr with
    | found spent most inTime =>
      -- the next wait begins now, and one acknowledgement less is missing
      obtain ⟨k, hk, hspent, hend⟩ := ih s₁.now rfl
      refine ⟨_, ?_, spent.trans hspent, ?_⟩
      · have hpos := left_pos deadline s₁
        rw [leftForAcks, left_from_now, spent.options] at hk
        split at hk
        · omega
        · next hrest =>
          have hone : expected - (acked + 1) = expected - (acked + 1 + 1) + 1 := by omega
          rw [hone, Nat.succ_mul]
          omega
      · intro a n herror
        obtain ⟨ha, hn, hlast⟩ := hend a n herror
        rw [List.length_cons, List.getLastD_cons]
        exact ⟨by omega, hn, spent.options ▸ hlast⟩
  | case6 acked deadline s hmore htime m s₁ hr _ hack hnak =>
    obtain ⟨k, hk, hspent⟩ := (waited_of_receive clock hr).spent
    rw [leftForAcks, if_neg hmore]
    refine ⟨k, Nat.le_trans hk (Nat.le_add_right _ _), hspent, ?_⟩
    rintro a n ⟨⟩
  | case7 acked deadline s hmore htime m s₁ hr _ hack hnak ih =>
    rw [ackTimes_of_some hmore htime hr, if_neg hack, if_neg hnak, leftForAcks, if_neg hmore]
    cases waited_of_receive clock hr with
    | found spent most inTime =>
      -- the deadline stays, so this wait and the rest of it are together no longer than one
      have hkeep : Spent clock 0 s₁ (s₁.keep m) := .keep s₁ m
      have hoptions : (s₁.keep m).options = s.options := hkeep.options.trans spent.options
      obtain ⟨k, hk, hspent, hend⟩ := ih mark (by rw [hoptions, hmark])
      rw [leftForAcks, if_neg hmore, left_of_now_eq hkeep.now_eq, hoptions] at hk
      rw [hoptions] at hend
      exact ⟨_, by omega, spent.trans (hkeep.after hspent), hend⟩

/-- The time of the last write of a batch, and then those of its acknowledgements. -/
def batchTimes (batch : List WriteMessage) (s : Session σ) : Nat × List Nat :=
  let sent := (putAll (batch.map WriteMessage.frame) s).2
  (sent.now, ackTimes batch.length 0 (sent.now + sent.options.ackTimeout) sent)

/-- To write a batch may fail, but not for want of time. -/
theorem isTimeout_of_putAll {frames : List (List UInt8)} {s s₁ : Session σ} {e : SessionError}
    (h : putAll frames s = (.error e, s₁)) : e.isTimeout = false := by
  induction frames generalizing s with
  | nil => cases h
  | cons data rest ih =>
    unfold putAll at h
    rcases hp : s.put data with ⟨e' | u, s₂⟩
    · rw [hp] at h
      cases h
      exact isTimeout_of_put hp
    · rw [hp] at h
      exact ih h

/-- The wait for the first acknowledgement begins when the last message is written. -/
theorem spent_applyBatch (batch : List WriteMessage) (s : Session σ) :
    ∃ k ≤ batch.length * waitReads s.options.ackTimeout, Spent clock k s (applyBatch batch s).2
      ∧ ∀ a n, (applyBatch batch s).1 = .error (.configTimeout a n) →
        a = (batchTimes batch s).2.length ∧ n = batch.length
          ∧ (batchTimes batch s).2.getLastD (batchTimes batch s).1 + s.options.ackTimeout
            ≤ (applyBatch batch s).2.now := by
  have hput : Spent clock 0 s (putAll (batch.map WriteMessage.frame) s).2 := .putAll _ s
  unfold applyBatch batchTimes
  rcases hp : putAll (batch.map WriteMessage.frame) s with ⟨e | u, s₁⟩
  · rw [hp] at hput
    refine ⟨0, Nat.zero_le _, hput, ?_⟩
    rintro a n ⟨⟩
    cases isTimeout_of_putAll hp
  · rw [hp] at hput
    obtain ⟨k, hk, hspent, hend⟩ :=
      spent_awaitAcks clock batch.length 0 (s₁.now + s₁.options.ackTimeout) s₁.now s₁ rfl
    simp only [Outcome.andThen_ok]
    have hoptions : s₁.options = s.options := hput.options
    rw [hoptions] at hk hend hspent ⊢
    refine ⟨k, ?_, hput.after hspent, ?_⟩
    · rw [leftForAcks, left_from_now, hoptions] at hk
      split at hk
      · omega
      · next hmore =>
        have hone : batch.length = batch.length - (0 + 1) + 1 := by omega
        rw [hone, Nat.succ_mul]
        omega
    · intro a n herror
      obtain ⟨ha, hn, hlast⟩ := hend a n herror
      exact ⟨by omega, hn, hlast⟩

/-! ### Whole calls -/

/-- An exchange takes as long as what is exchanged, and gives its result. -/
theorem spent_whileBusy {α : Type} {k : Nat} (s : Session σ) (run : Session σ → Outcome σ α)
    (h : Spent clock k { s with phase := .busy } (run { s with phase := .busy }).2) :
    Spent clock k s (s.whileBusy run).2
      ∧ (s.whileBusy run).1 = (run { s with phase := .busy }).1
      ∧ (s.whileBusy run).2.now = (run { s with phase := .busy }).2.now := by
  have hstart : Spent clock 0 s { s with phase := .busy } := .of_eq rfl rfl
  unfold whileBusy
  rcases hr : run { s with phase := .busy } with ⟨r, s₁⟩
  rw [hr] at h
  dsimp only
  split
  · have hready : Spent clock 0 s₁ { s₁ with phase := .ready } := .of_eq rfl rfl
    exact ⟨(hstart.after h).trans hready, rfl, rfl⟩
  · exact ⟨hstart.after h, rfl, rfl⟩

/-- A message that is kept takes no time, and any other one is waited for once. -/
theorem spent_nextMessage (s : Session σ) (timeout : Nat) :
    ∃ k ≤ waitReads timeout, Spent clock k s (s.nextMessage timeout).2
      ∧ ((s.nextMessage timeout).1 = .ok none →
        s.now + timeout ≤ (s.nextMessage timeout).2.now) := by
  unfold nextMessage whenOpen
  split
  · cases hpending : s.pending with
    | cons m rest =>
      dsimp only
      rw [hpending]
      exact ⟨0, Nat.zero_le _, .of_eq rfl rfl, nofun⟩
    | nil =>
      dsimp only
      rw [hpending]
      rcases hr : s.receive (s.now + timeout) false with ⟨r, s₁⟩
      have h := waited_of_receive clock hr
      obtain ⟨k, hk, hspent⟩ := h.spent
      rw [left_from_now] at hk
      refine ⟨k, hk, hspent, ?_⟩
      rintro ⟨⟩
      cases h with
      | nothing spent most late => exact late
  · exact ⟨0, Nat.zero_le _, .refl s, nofun⟩

/-- A call takes as long as its poll, which is not made at all if the session is not open. -/
theorem spent_poll (s : Session σ) (p : Poll) :
    ∃ k ≤ p.attempts * waitReads p.timeout, Spent clock k s (s.poll p).2
      ∧ ∀ name n, (s.poll p).1 = .error (.pollTimeout name n) →
        s.now + p.attempts * p.timeout ≤ (s.poll p).2.now := by
  unfold Session.poll whenOpen
  split
  · obtain ⟨k, hk, hspent, hend⟩ := spent_exchange clock p { s with phase := .busy }
    obtain ⟨hspent', hresult, hnow⟩ := spent_whileBusy clock s (exchange p) hspent
    dsimp only
    rw [hresult, hnow]
    exact ⟨k, hk, hspent', hend⟩
  · exact ⟨0, Nat.zero_le _, .refl s, nofun⟩

theorem spent_sendBatch (s : Session σ) (batch : List WriteMessage) :
    ∃ k ≤ batch.length * waitReads s.options.ackTimeout, Spent clock k s (s.sendBatch batch).2
      ∧ ∀ a n, (s.sendBatch batch).1 = .error (.configTimeout a n) →
        a = (batchTimes batch { s with phase := .busy }).2.length ∧ n = batch.length
          ∧ (batchTimes batch { s with phase := .busy }).2.getLastD
              (batchTimes batch { s with phase := .busy }).1 + s.options.ackTimeout
            ≤ (s.sendBatch batch).2.now := by
  unfold sendBatch whenOpen
  split
  · obtain ⟨k, hk, hspent, hend⟩ := spent_applyBatch clock batch { s with phase := .busy }
    obtain ⟨hspent', hresult, hnow⟩ := spent_whileBusy clock s (applyBatch batch) hspent
    dsimp only
    rw [hresult, hnow]
    exact ⟨k, hk, hspent', hend⟩
  · exact ⟨0, Nat.zero_le _, .refl s, nofun⟩

/-- The time spent, where a wait takes `n` times as long as one for `timeout`. -/
theorem Spent.now_le_waitTime {clock : IdleClock σ} {k n timeout : Nat} {s s' : Session σ}
    (h : Spent clock k s s') (hk : k ≤ n * waitReads timeout) :
    s'.now ≤ s.now + n * waitTime timeout := by
  have hmost := Nat.mul_le_mul_right idleTime hk
  rw [Nat.mul_assoc, ← Script.waitTime_eq] at hmost
  exact Nat.le_trans h.now_le (Nat.add_le_add_left hmost _)

/-- How many reads there were. -/
theorem Spent.countP_uses_le {k : Nat} {s : Session σ} {s' : Session (Logged σ)}
    (h : Spent clock.logged k s.logged s') :
    s'.link.uses.countP Use.isRead ≤ Link.supply s.link + k := by
  have hreads := h.reads
  have hnew : clock.logged.reads s.logged.link + Link.supply s.logged.link = Link.supply s.link :=
    Nat.zero_add _
  rw [hnew] at hreads
  exact Nat.le_trans (Nat.le_add_right _ _) hreads

/-- **Waiting is bounded and never cut short**, in every state of a session over a scripted link.
* A wait for a message ends after finitely many reads and after the timeout, rounded up to a
  multiple of the time of one idle read. It ends with nothing only after the timeout.
* A poll takes that time for each attempt, and is given up only after the timeouts of all attempts
  (which are the retries and one more, unless there are so many that no word holds their number).
* A configuration write takes that time for each message, and is given up only when the timeout has
  passed since its last acknowledgement, or else since its last message was written. -/
theorem waits_of_script (s : Session Script) :
    (∀ timeout,
      (s.nextMessage timeout).2.now ≤ s.now + waitTime timeout
      ∧ ((s.nextMessage timeout).1 = .ok none → s.now + timeout ≤ (s.nextMessage timeout).2.now)
      ∧ ((Call.nextMessage timeout).uses s).countP Use.isRead
        ≤ s.link.supply + waitReads timeout)
    ∧ (∀ p : Poll,
      (s.poll p).2.now ≤ s.now + (p.retries + 1) * waitTime p.timeout
      ∧ (p.retries + 1 < UInt64.size →
        ∀ name n, (s.poll p).1 = .error (.pollTimeout name n) →
          s.now + (p.retries + 1) * p.timeout ≤ (s.poll p).2.now))
    ∧ ∀ batch : List WriteMessage,
      (s.sendBatch batch).2.now ≤ s.now + batch.length * waitTime s.options.ackTimeout
      ∧ ∀ acked expected, (s.sendBatch batch).1 = .error (.configTimeout acked expected) →
        (batchTimes batch { s with phase := .busy }).2.length = acked ∧ batch.length = expected
          ∧ (batchTimes batch { s with phase := .busy }).2.getLastD
              (batchTimes batch { s with phase := .busy }).1 + s.options.ackTimeout
            ≤ (s.sendBatch batch).2.now := by
  refine ⟨?_, ?_, ?_⟩
  · intro timeout
    obtain ⟨k, hk, hspent, hend⟩ := spent_nextMessage Script.idleClock s timeout
    -- the log counts the reads, and the session over the log takes the same course
    obtain ⟨j, hj, hlogged, -⟩ := spent_nextMessage Script.idleClock.logged s.logged timeout
    have hone : k ≤ 1 * waitReads timeout := by rwa [Nat.one_mul]
    have hmost := hspent.now_le_waitTime hone
    rw [Nat.one_mul] at hmost
    have hreads := hlogged.countP_uses_le Script.idleClock
    exact ⟨hmost, hend, Nat.le_trans hreads (Nat.add_le_add_left hj _)⟩
  · intro p
    obtain ⟨k, hk, hspent, hend⟩ := spent_poll Script.idleClock s p
    have hmost : p.attempts * waitReads p.timeout ≤ (p.retries + 1) * waitReads p.timeout :=
      Nat.mul_le_mul_right _ p.attempts_le
    refine ⟨hspent.now_le_waitTime (Nat.le_trans hk hmost), ?_⟩
    intro hcounted
    rw [Poll.attempts_eq hcounted] at hend
    exact hend
  · intro batch
    obtain ⟨k, hk, hspent, hend⟩ := spent_sendBatch Script.idleClock s batch
    refine ⟨hspent.now_le_waitTime hk, ?_⟩
    intro acked expected herror
    obtain ⟨hacked, hexpected, hlast⟩ := hend acked expected herror
    exact ⟨hacked.symm, hexpected.symm, hlast⟩

/-- A session over a link on which nothing ever arrives. -/
def ofSilence : Session Script where
  name := "silence"
  options := { ackTimeout := millis 10 }
  link := {}
  phase := .ready

/-- Where nothing arrives, one idle read is enough for a short timeout. -/
theorem receive_of_silence {s : Session Script} {timeout : Nat} (hnext : s.demux.next? = none)
    (hsilence : s.link.incoming = []) (hactive : s.aborted = false) (hshort : timeout ≤ idleTime) :
    s.receive (s.now + timeout) false = (.ok none, { s with link := s.link.wait idleTime }) := by
  have hread : Link.read s.link = (.ok [], s.link.wait idleTime) := by
    show s.link.read = _
    rw [Script.read, hsilence]
  have hsame : s.demux.add [] = s.demux := by rw [Stream.Demux.add, List.append_nil]
  rw [receive_eq, hnext, hread]
  simp only [hactive, hsame]
  exact receive_of_next?_eq_none hnext (Nat.add_le_add_left hshort s.link.now)

/-- A poll that nothing answers. -/
def vainPoll : Poll := { id := .monVer, timeout := millis 5, retries := 0 }

/-- A message that nothing acknowledges. -/
def vainBatch : List WriteMessage := [⟨[], .none, 0, ""⟩]

/-- A poll that nothing answers times out. -/
theorem poll_ofSilence :
    (ofSilence.poll vainPoll).1 = .error (.pollTimeout "UBX-MON-VER" 1) := by
  obtain ⟨s₁, hput, hdemux, hincoming, hactive⟩ :
      ∃ s₁, putPoll vainPoll { ofSilence with phase := .busy } = (.ok (), s₁)
        ∧ s₁.demux = {} ∧ s₁.link.incoming = [] ∧ s₁.aborted = false := ⟨_, rfl, rfl, rfl, rfl⟩
  have hshort : vainPoll.timeout ≤ idleTime := by decide
  have hnothing := receive_of_silence (hdemux ▸ rfl) hincoming hactive hshort
  obtain ⟨s₂, hanswer⟩ :
      ∃ s₂, awaitAnswer vainPoll (s₁.now + vainPoll.timeout) s₁ = (.ok none, s₂) := by
    rw [awaitAnswer_eq, hnothing, if_neg (Nat.not_lt.mpr (Nat.le_add_right _ _))]
    exact ⟨_, rfl⟩
  have htry : tryPoll vainPoll vainPoll.attempts { ofSilence with phase := .busy }
      = (.ok none, s₂) := by
    have hone : vainPoll.attempts = 1 := by decide
    rw [hone]
    simp only [tryPoll, hput, hanswer, Outcome.andThen_ok]
  simp only [Session.poll, whenOpen, whileBusy, exchange, htry, Outcome.andThen_ok]
  rfl

/-- A batch that nothing acknowledges times out. -/
theorem sendBatch_ofSilence :
    (ofSilence.sendBatch vainBatch).1 = .error (.configTimeout 0 1) := by
  obtain ⟨s₁, hput, hdemux, hincoming, hactive, htimeout⟩ :
      ∃ s₁, putAll (vainBatch.map WriteMessage.frame) { ofSilence with phase := .busy }
          = (.ok (), s₁)
        ∧ s₁.demux = {} ∧ s₁.link.incoming = [] ∧ s₁.aborted = false
        ∧ s₁.options.ackTimeout = millis 10 := ⟨_, rfl, rfl, rfl, rfl, rfl⟩
  have hshort : s₁.options.ackTimeout ≤ idleTime := Nat.le_of_eq htimeout
  have hnothing := receive_of_silence (hdemux ▸ rfl) hincoming hactive hshort
  obtain ⟨s₂, hacks⟩ : ∃ s₂, awaitAcks 1 0 (s₁.now + s₁.options.ackTimeout) s₁
      = (.error (.configTimeout 0 1), s₂) := by
    rw [awaitAcks_eq, hnothing, if_neg (by decide),
      if_neg (Nat.not_lt.mpr (Nat.le_add_right _ _))]
    exact ⟨_, rfl⟩
  have hlength : vainBatch.length = 1 := rfl
  simp only [sendBatch, whenOpen, whileBusy, applyBatch, hput, hlength, hacks, Outcome.andThen_ok]
  rfl

theorem waits_ofSilence :
    (ofSilence.nextMessage (millis 5)).1 = .ok none
      ∧ ofSilence.now + millis 5 ≤ (ofSilence.nextMessage (millis 5)).2.now
      ∧ (ofSilence.poll vainPoll).1 = .error (.pollTimeout "UBX-MON-VER" 1)
      ∧ vainPoll.retries + 1 < UInt64.size
      ∧ ofSilence.now + (0 + 1) * millis 5 ≤ (ofSilence.poll vainPoll).2.now
      ∧ (ofSilence.sendBatch vainBatch).1 = .error (.configTimeout 0 1)
      ∧ (batchTimes vainBatch { ofSilence with phase := .busy }).2.getLastD
          (batchTimes vainBatch { ofSilence with phase := .busy }).1 + millis 10
        ≤ (ofSilence.sendBatch vainBatch).2.now := by
  have hnothing : (ofSilence.nextMessage (millis 5)).1 = .ok none :=
    congrArg Prod.fst (receive_of_silence (s := ofSilence) rfl rfl rfl (by decide))
  obtain ⟨hmessage, hpoll, hbatch⟩ := waits_of_script ofSilence
  have hcounted : vainPoll.retries + 1 < UInt64.size := by decide
  exact ⟨hnothing, (hmessage _).2.1 hnothing, poll_ofSilence, hcounted,
    (hpoll _).2 hcounted _ _ poll_ofSilence, sendBatch_ofSilence,
    ((hbatch _).2 _ _ sendBatch_ofSilence).2.2⟩

end Session
end GnssLink
