import GnssLink.Proofs.Session.Parcels
/-!
# GnssLink.Proofs.Session.PolledScript

**Polls of a script that answers at one baud rate only** (`Script.AnswersAt`). At that rate the
first poll takes the answer that its reply brings in time (`Session.tryPoll_of_heard`). At any other
rate every attempt ends with nothing (`Session.tryPoll_of_unheard`). Either way whole frames that do
not end the poll may arrive meanwhile (`Parcel.IsAside`), of any length, so that a read may end
inside a frame.

While a session waits, only the clock of the script and what arrives in it change: it is a script as
it was before at a later time (`Script.later`).
-/

namespace GnssLink

/-! ### The script at a later time -/

namespace Script

/-- The script at another time, when other parcels are to arrive. -/
def later (base : Script) (now : Nat) (parcels : List Parcel) : Script :=
  { base with now, incoming := parcels.map Parcel.arrival }

/-- These parcels arrive in order. Those that are not due yet are as `P` says; of the others a part
may have been read. -/
structure Queue (P : Parcel → Prop) (now : Nat) (parcels : List Parcel) : Prop where
  sorted : parcels.Pairwise fun p q => p.time ≤ q.time
  nonempty : ∀ p ∈ parcels, p.bytes ≠ []
  ahead : ∀ p ∈ parcels, now < p.time → P p

namespace Queue

variable {P : Parcel → Prop} {now : Nat} {p : Parcel} {parcels rest : List Parcel}

theorem wait (h : Queue P now parcels) (d : Nat) : Queue P (now + d) parcels :=
  ⟨h.sorted, h.nonempty, fun p hp hahead =>
    h.ahead p hp (Nat.lt_of_le_of_lt (Nat.le_add_right now d) hahead)⟩

/-- What is left of a parcel is as early as the parcel was. -/
theorem read (h : Queue P now (p :: rest)) (htime : ¬now < p.time) :
    Queue P now (p.unread ++ rest) := by
  obtain ⟨hfirst, hsorted⟩ := List.pairwise_cons.mp h.sorted
  obtain ⟨-, hnonempty⟩ := List.forall_mem_cons.mp h.nonempty
  refine ⟨?_, ?_, ?_⟩
  · unfold Parcel.unread
    split
    · exact hsorted
    · exact List.pairwise_cons.mpr ⟨hfirst, hsorted⟩
  · intro q hq
    rcases List.mem_append.mp hq with hq | hq
    · exact (Parcel.eq_of_mem_unread hq).2
    · exact hnonempty q hq
  · intro q hq hahead
    rcases List.mem_append.mp hq with hq | hq
    · -- nothing is known of a rest, but it is due already
      rw [(Parcel.eq_of_mem_unread hq).1] at hahead
      exact absurd hahead htime
    · exact h.ahead q (List.mem_cons_of_mem _ hq) hahead

end Queue

/-- The script is `base` at a later time and delivers the bytes on their way. -/
def Carries (P : Parcel → Prop) (base : Script) (_past : List UInt8) (coming : List Coming)
    (s : Script) : Prop :=
  ∃ parcels, coming = Parcel.comingAll parcels
    ∧ ∃ now, s = base.later now parcels ∧ Queue P now parcels

theorem delivers_carries (P : Parcel → Prop) (base : Script) : Delivers (Carries P base) := by
  refine @delivers_of_parcels
    (fun _ parcels s => ∃ now, s = base.later now parcels ∧ Queue P now parcels) ?_ ?_ ?_
  · rintro - parcels _ ⟨now, rfl, hqueue⟩
    exact ⟨rfl, hqueue.nonempty⟩
  · rintro - parcels _ ⟨now, rfl, hqueue⟩
    exact ⟨now + idleTime, rfl, hqueue.wait idleTime⟩
  · rintro - p rest _ ⟨now, rfl, hqueue⟩ htime
    exact ⟨now, rfl, hqueue.read htime⟩

/-! ### Writing -/

/-- The script never fails. It has a reply to the poll, which it gives at one baud rate only. -/
structure AnswersAt (good : UInt32) (poll : Poll) (reply : List Parcel) (s : Script) : Prop where
  tunable : s.baud.isSome = true
  good : s.goodBaud = some good
  replies : (takeReply poll.id s.rules).1 = reply.map Parcel.delayed
  writable : s.failWrite = none
  anyRate : s.failBaud = none
  clearable : s.failClear = false

variable {good : UInt32} {poll : Poll} {reply parcels : List Parcel} {base : Script} {now : Nat}

/-- The script once it took the poll and gave the reply. -/
def asked (base : Script) (poll : Poll) : Script :=
  base.replied poll.frame (takeReply poll.id base.rules).2

namespace AnswersAt

theorem wrote (h : AnswersAt good poll reply base) (n : Nat) (data : List UInt8) :
    AnswersAt good poll reply (base.wrote n data) :=
  ⟨h.tunable, h.good, h.replies, h.writable, h.anyRate, h.clearable⟩

/-- Whether the script hears what is written depends on its baud rate. -/
theorem isHeard_eq (h : AnswersAt good poll reply base) :
    base.isHeard = (base.baud == some good) := by
  rw [isHeard, h.good]
  rfl

theorem write_of_unheard (h : AnswersAt good poll reply base) (hunheard : base.isHeard = false)
    (data : List UInt8) :
    write data (base.later now parcels) = (.ok (), (base.wrote 1 data).later now parcels) := by
  have hdeaf : ¬(base.later now parcels).isHeard = true := ne_true_of_eq_false hunheard
  rw [write_of_writable (s := base.later now parcels) h.writable, if_neg hdeaf]
  rfl

/-- The reply is put among what arrives. -/
theorem write_of_heard (h : AnswersAt good poll reply base) (hheard : base.isHeard = true)
    (now : Nat) (hsorted : parcels.Pairwise fun p q => p.time ≤ q.time) :
    ∃ parcels', write poll.frame (base.later now parcels)
        = (.ok (), (base.asked poll).later now parcels')
      ∧ parcels'.Pairwise (fun p q => p.time ≤ q.time)
      ∧ parcels'.Perm (reply.map (Parcel.after now) ++ parcels) := by
  have hid : idOf? poll.frame = some poll.id := rfl
  have htake : takeReply poll.id base.rules
      = (reply.map Parcel.delayed, (takeReply poll.id base.rules).2) := by
    rw [← h.replies]
  exact write_of_reply (s := base.later now parcels) h.writable hheard hid htake rfl hsorted

end AnswersAt
end Script

/-! ### Polling -/

namespace Session

open Script (AnswersAt Carries Queue)

variable {good : UInt32} {poll : Poll} {reply : List Parcel} {base : Script} {limit : Nat}
  {past : List UInt8} {coming : List Coming} {s : Session Script}

/-- Nothing was read yet of a script whose parcels are all aside. -/
structure Listens (poll : Poll) (base : Script) (s : Session Script) : Prop where
  arrives : ∃ now parcels, s.link = base.later now parcels
    ∧ parcels.Pairwise (fun p q => p.time ≤ q.time) ∧ ∀ p ∈ parcels, p.IsAside poll
  empty : s.demux.buffer = []
  active : s.aborted = false

/-- Nothing that ends the poll is to come. -/
theorem Listens.expects {now : Nat} {parcels : List Parcel} (h : Listens poll base s)
    (hlink : s.link = base.later now parcels)
    (hsorted : parcels.Pairwise fun p q => p.time ≤ q.time)
    (haside : ∀ p ∈ parcels, p.IsAside poll) :
    Expects poll.observation (Carries (Parcel.IsAside poll) base) poll.timeout [] s.now []
      (Parcel.comingAll parcels) s := by
  have hqueue : Queue (Parcel.IsAside poll) now parcels :=
    ⟨hsorted, fun p hp => (haside p hp).nonempty, fun p hp _ => haside p hp⟩
  rw [← h.empty]
  refine .of_quiet ⟨parcels, rfl, now, hlink, hqueue⟩ h.active ?_
  rw [h.empty]
  exact Parcel.seen_of_aside haside

/-- What is sent to a link that takes it changes the link only. -/
theorem putPoll_of_write {link : Script} (hsends : poll.waitOnly = false)
    (hwrite : Script.write poll.frame s.link = (.ok (), link)) :
    putPoll poll s = (.ok (), { s with link }) ∧ Kept s { s with link } := by
  have hwrite' : Link.write poll.frame s.link = (.ok (), link) := hwrite
  rw [putPoll, hsends, if_neg Bool.false_ne_true, put, hwrite']
  exact ⟨rfl, rfl, rfl, rfl, rfl⟩

/-- A poll that nobody hears is sent as often as it may be, and what was quiet stays so. -/
theorem tryPoll_of_unheard (hanswers : AnswersAt good poll reply base)
    (hunheard : base.isHeard = false) (hsends : poll.waitOnly = false) (n : Nat)
    (h : Expects poll.observation (Carries (Parcel.IsAside poll) base) poll.timeout [] limit past
      coming s) :
    ∃ past' coming' s', tryPoll poll n s = (.ok none, s')
      ∧ Expects poll.observation (Carries (Parcel.IsAside poll) (base.wrote n poll.frame))
        poll.timeout [] limit past' coming' s'
      ∧ Kept s s' := by
  -- on the attempts: each leaves the script as it was but for one more write
  induction n generalizing base past coming s with
  | zero =>
    have hsame : base.wrote 0 poll.frame = base := by simp [Script.wrote]
    rw [hsame]
    exact ⟨past, coming, s, rfl, h, .refl s⟩
  | succ n ih =>
    obtain ⟨parcels, rfl, now, hlink, hqueue⟩ := h.serves
    have hwrite : Script.write poll.frame s.link
        = (.ok (), (base.wrote 1 poll.frame).later now parcels) := by
      rw [hlink]
      exact hanswers.write_of_unheard hunheard poll.frame
    obtain ⟨hput, hkept₁⟩ := putPoll_of_write hsends hwrite
    have hquiet : Expects poll.observation
        (Carries (Parcel.IsAside poll) (base.wrote 1 poll.frame)) poll.timeout [] limit past
        (Parcel.comingAll parcels)
        { s with link := (base.wrote 1 poll.frame).later now parcels } := by
      have hinTime := h.inTime
      have hnow : s.now = now := congrArg Script.now hlink
      rw [hnow] at hinTime
      exact ⟨⟨parcels, rfl, now, rfl, hqueue⟩, h.read, h.owes, h.due, hinTime, h.active⟩
    obtain ⟨past₂, coming₂, s₂, hwait, hquiet₂⟩ :=
      awaitAnswer_of_quiet (Script.delivers_carries _ _) hquiet
    obtain ⟨past₃, coming₃, s₃, hrest, hquiet₃, hkept₃⟩ :=
      ih (hanswers.wrote 1 poll.frame) hunheard hquiet₂
    rw [Script.wrote_wrote, Nat.add_comm 1 n] at hquiet₃
    refine ⟨past₃, coming₃, s₃, ?_, hquiet₃, (hkept₁.trans (kept_awaitAnswer hwait)).trans hkept₃⟩
    rw [tryPoll, hput, Outcome.andThen_ok, hwait]
    exact hrest

/-- A poll that is heard makes its answer owed. -/
theorem putPoll_of_heard {data : List UInt8} (hanswers : AnswersAt good poll reply base)
    (hheard : base.isHeard = true) (hsends : poll.waitOnly = false)
    (hbrings : Parcel.Bring poll data poll.timeout reply) (h : Listens poll base s) :
    ∃ coming' s', putPoll poll s = (.ok (), s')
      ∧ Expects poll.observation (Carries (fun _ => True) (base.asked poll)) poll.timeout [data]
        (s'.now + poll.timeout) [] coming' s'
      ∧ Kept s s' := by
  obtain ⟨now, parcels, hlink, hsorted, haside⟩ := h.arrives
  obtain ⟨parcels', hwrite, hsorted', hperm⟩ := hanswers.write_of_heard hheard now hsorted
  rw [← hlink] at hwrite
  obtain ⟨hput, hkept⟩ := putPoll_of_write hsends hwrite
  refine ⟨Parcel.comingAll parcels', _, hput, ?_, hkept⟩
  -- the others say nothing, so the answer is all that was not seen before
  have hbrings' := hbrings.among now haside hperm
  have hqueue : Queue (fun _ => True) now parcels' :=
    ⟨hsorted', hbrings'.nonempty, fun _ _ _ => trivial⟩
  have hserves : Carries (fun _ => True) (base.asked poll) [] (Parcel.comingAll parcels')
      ((base.asked poll).later now parcels') := ⟨parcels', rfl, now, rfl, hqueue⟩
  refine (h.expects hlink hsorted haside).of_write hserves ?_ ?_
  · rw [List.nil_append, List.nil_append, hbrings'.seen_eq, Parcel.seen_of_aside haside]
    rfl
  · intro x next y hsplit hmissing
    exact Parcel.due_of_sorted (congrArg Prod.snd Stream.layout_nil) hbrings'.whole hsorted'
      hbrings'.soon hsplit hmissing

/-- **Where the script hears the poll, the first attempt takes the answer.** -/
theorem tryPoll_of_heard {data : List UInt8} (hanswers : AnswersAt good poll reply base)
    (hheard : base.isHeard = true) (hsends : poll.waitOnly = false)
    (hbrings : Parcel.Bring poll data poll.timeout reply) (n : Nat) (h : Listens poll base s) :
    ∃ m s' now parcels, tryPoll poll (n + 1) s
        = (.ok (some ⟨m, poll.classify m == .refusal⟩), s')
      ∧ poll.classify m ≠ .unrelated ∧ m.data = data
      ∧ s'.link = (base.asked poll).later now parcels ∧ Kept s s' := by
  obtain ⟨coming₁, s₁, hput, howed, hkept⟩ := putPoll_of_heard hanswers hheard hsends hbrings h
  obtain ⟨m, past₂, coming₂, s₂, hwait, hrelated, hdata, hrest⟩ :=
    awaitAnswer_of_expects (Script.delivers_carries _ _) howed (Nat.le_refl _)
      (Nat.lt_add_of_pos_right hbrings.limit_pos)
  obtain ⟨parcels, -, now, hlink, -⟩ := hrest.serves
  refine ⟨m, s₂, now, parcels, ?_, hrelated, hdata, hlink, hkept.trans (kept_awaitAnswer hwait)⟩
  rw [tryPoll, hput, Outcome.andThen_ok, hwait]
  rfl

end Session
end GnssLink
