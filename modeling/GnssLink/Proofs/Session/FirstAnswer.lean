import GnssLink.Proofs.Session.Course
import GnssLink.Proofs.Session.Lifecycle
/-!
# GnssLink.Proofs.Session.FirstAnswer

**A poll is answered by the first message that answers or refuses it**
(`Session.firstAnswer_of_poll`). All messages heard before that one are kept, those of attempts that
came to nothing included, and none after it is taken from the stream. If no attempt hears an answer
then each of them was made, and all that was heard is kept.

Where the link does not fail, a poll is a list of attempts. An attempt sends the poll, unless that
only waits, and then reads and hears some messages (`Poll.usesOf`).
-/

namespace GnssLink

open GnssLink.Stream (Message)

/-- What one attempt of a poll reads, and the messages it hears. -/
structure Attempt where
  reads : List (List UInt8)
  heard : List Message

/-- How an attempt uses the link. -/
def Poll.usesOf (poll : Poll) (attempt : Attempt) : List Use :=
  (if poll.waitOnly then [] else Use.writes [poll.frame]) ++ Use.reads attempt.reads

/-- The bytes that the attempts gave are those of their reads: sending the poll gives none. -/
theorem Poll.filterMap_reading?_usesOf (poll : Poll) (attempts : List Attempt) :
    (attempts.flatMap poll.usesOf).filterMap Use.reading? = attempts.flatMap Attempt.reads := by
  have hone (attempt : Attempt) : (poll.usesOf attempt).filterMap Use.reading? = attempt.reads := by
    rw [usesOf, List.filterMap_append, Use.filterMap_reading?_reads]
    split <;> rfl
  induction attempts with
  | nil => rfl
  | cons attempt rest ih =>
    rw [List.flatMap_cons, List.filterMap_append, hone, ih, List.flatMap_cons]

/-- The messages of some attempts are kept up to the answer, if there is one. -/
structure Poll.Settles (poll : Poll) (heard kept : List Message) (answer : Option Answer) :
    Prop where
  heard : heard = kept ++ (answer.map Answer.message).toList
  kept : ∀ m ∈ kept, poll.classify m = .unrelated
  answer : ∀ a ∈ answer, poll.classify a.message = if a.refused then .refusal else .answer

namespace Poll.Settles

variable {poll : Poll} {heard kept later more : List Message} {answer : Option Answer}

theorem nothing (poll : Poll) : poll.Settles [] [] none := ⟨rfl, nofun, nofun⟩

/-- An answer settles a poll at once. -/
theorem of_answer {a : Answer}
    (h : poll.classify a.message = if a.refused then .refusal else .answer) :
    poll.Settles [a.message] [] (some a) where
  heard := rfl
  kept := nofun
  answer := by
    rintro _ ⟨⟩
    exact h

theorem of_unrelated {m : Message} (h : poll.classify m = .unrelated) :
    poll.Settles [m] [m] none where
  heard := rfl
  kept := by
    intro m' hmem
    rw [List.mem_singleton.mp hmem]
    exact h
  answer := nofun

/-- Messages that settle nothing may stand before any others. -/
theorem append (h : poll.Settles heard kept none) (hmore : poll.Settles later more answer) :
    poll.Settles (heard ++ later) (kept ++ more) answer where
  heard := by
    have hnothing : heard = kept := h.heard.trans (List.append_nil kept)
    rw [hnothing, hmore.heard, List.append_assoc]
  kept := by
    intro m hmem
    rcases List.mem_append.mp hmem with hmem | hmem
    · exact h.kept m hmem
    · exact hmore.kept m hmem
  answer := hmore.answer

end Poll.Settles

/-- The attempts of a poll end with an answer, or none of so many is left. -/
structure Poll.Tries (poll : Poll) (most : Nat) (attempts : List Attempt) (kept : List Message)
    (answer : Option Answer) : Prop where
  settles : poll.Settles (attempts.flatMap Attempt.heard) kept answer
  le_most : attempts.length ≤ most
  begun : answer.isSome → 0 < attempts.length
  all : answer = none → attempts.length = most

namespace Poll.Tries

variable {poll : Poll} {most : Nat} {attempt : Attempt} {attempts : List Attempt}
  {kept more : List Message} {answer : Option Answer}

theorem nothing (poll : Poll) : poll.Tries 0 [] [] none :=
  ⟨.nothing poll, Nat.le_refl 0, nofun, fun _ => rfl⟩

/-- The attempt that hears the answer is the last one. -/
theorem of_answer {a : Answer} (h : poll.Settles attempt.heard kept (some a)) (most : Nat) :
    poll.Tries (most + 1) [attempt] kept (some a) where
  settles := by
    rw [List.flatMap_singleton]
    exact h
  le_most := Nat.le_add_left 1 most
  begun _ := Nat.one_pos
  all := nofun

/-- An attempt that hears no answer leaves the rest of them. -/
theorem cons (hmore : poll.Tries most attempts more answer)
    (h : poll.Settles attempt.heard kept none) :
    poll.Tries (most + 1) (attempt :: attempts) (kept ++ more) answer where
  settles := h.append hmore.settles
  le_most := Nat.succ_le_succ hmore.le_most
  begun _ := Nat.succ_pos _
  all hnone := congrArg Nat.succ (hmore.all hnone)

end Poll.Tries

namespace Session

variable {σ : Type} [Link σ] {s s₁ : Session (Logged σ)}

/-! ### One attempt -/

/-- A wait hears messages up to the answer and keeps the others. -/
theorem course_awaitAnswer {poll : Poll} {deadline : Nat} {answer : Option Answer}
    (h : awaitAnswer poll deadline s = (.ok answer, s₁)) :
    ∃ reads heard kept, Course s (Use.reads reads) heard kept s₁
      ∧ poll.Settles heard kept answer := by
  fun_induction awaitAnswer poll deadline s with
  | case1 s =>
    cases h
    exact ⟨[], [], [], .refl _, .nothing poll⟩
  | case2 => cases h
  | case3 s _ _ hr =>
    cases h
    obtain ⟨reads, hcourse⟩ := course_receive hr
    exact ⟨reads, [], [], hcourse, .nothing poll⟩
  | case4 s _ m _ hr hclass =>
    cases h
    obtain ⟨reads, hcourse⟩ := course_receive hr
    exact ⟨reads, [m], [], hcourse, .of_answer (a := ⟨m, false⟩) hclass⟩
  | case5 s _ m _ hr hclass =>
    cases h
    obtain ⟨reads, hcourse⟩ := course_receive hr
    exact ⟨reads, [m], [], hcourse, .of_answer (a := ⟨m, true⟩) hclass⟩
  | case6 s _ m s' hr hclass _ ih =>
    obtain ⟨reads, hcourse⟩ := course_receive hr
    obtain ⟨more, heard, kept, hrest, hsettles⟩ := ih h
    -- the message is in the queue before the wait goes on
    have hkept : Course s (Use.reads reads) [m] [m] (s'.keep m) := by
      have hboth := hcourse.trans (.keep s' m)
      rwa [List.append_nil] at hboth
    have hall : poll.Settles ([m] ++ heard) ([m] ++ kept) answer :=
      (Poll.Settles.of_unrelated hclass).append hsettles
    refine ⟨reads ++ more, _, _, ?_, hall⟩
    rw [Use.reads_append]
    exact hkept.trans hrest

/-- As long as the user does not give up, a wait fails only with its link. -/
theorem fault_of_awaitAnswer {poll : Poll} {deadline : Nat} {e : SessionError}
    (hactive : s.aborted = false) (h : awaitAnswer poll deadline s = (.error e, s₁)) :
    ∃ f, e = .fault f := by
  fun_induction awaitAnswer poll deadline s with
  | case1 => cases h
  | case2 s _ e' _ hr =>
    cases h
    exact fault_of_receive hactive hr
  | case3 => cases h
  | case4 => cases h
  | case5 => cases h
  | case6 s _ m s' hr _ _ ih =>
    obtain ⟨reads, hcourse⟩ := course_receive hr
    exact ih ((Course.keep s' m).aborted.trans (hcourse.aborted.trans hactive)) h

/-- The poll is sent, or nothing is done if it only waits. -/
theorem course_putPoll {poll : Poll} (h : putPoll poll s = (.ok (), s₁)) :
    Course s (if poll.waitOnly then [] else Use.writes [poll.frame]) [] [] s₁ := by
  unfold putPoll at h
  split at h
  · next hwaits =>
    cases h
    rw [if_pos hwaits]
    exact .refl s
  · next hsends =>
    rw [if_neg hsends]
    exact course_put h

theorem fault_of_putPoll {poll : Poll} {e : SessionError} (h : putPoll poll s = (.error e, s₁)) :
    ∃ f, e = .fault f := by
  unfold putPoll at h
  split at h
  · cases h
  · exact fault_of_put h

/-! ### All attempts -/

/-- An attempt is made until one hears an answer, or all are made. -/
theorem course_tryPoll {poll : Poll} {n : Nat} {answer : Option Answer}
    (h : tryPoll poll n s = (.ok answer, s₁)) :
    ∃ (attempts : List Attempt) (kept : List Message),
      Course s (attempts.flatMap poll.usesOf) (attempts.flatMap Attempt.heard) kept s₁
        ∧ poll.Tries n attempts kept answer := by
  -- by the attempts that are left: an answer is the last of them, silence stands before the rest
  induction n generalizing s with
  | zero =>
    cases h
    exact ⟨[], [], .refl _, .nothing poll⟩
  | succ n ih =>
    unfold tryPoll at h
    rcases hput : putPoll poll s with ⟨e | _, sent⟩
    · rw [hput] at h
      cases h
    · rw [hput, Outcome.andThen_ok] at h
      rcases hwait : awaitAnswer poll (sent.now + poll.timeout) sent with ⟨e | first, waited⟩
      · rw [hwait] at h
        cases h
      · rw [hwait, Outcome.andThen_ok] at h
        obtain ⟨reads, heard, kept, hcourse, hsettles⟩ := course_awaitAnswer hwait
        obtain ⟨attempt, hattempt⟩ : ∃ a : Attempt, a = ⟨reads, heard⟩ := ⟨_, rfl⟩
        have hfirst : Course s (poll.usesOf attempt) attempt.heard kept waited := by
          rw [hattempt]
          exact (course_putPoll hput).trans hcourse
        have hsettled : poll.Settles attempt.heard kept first := by
          rw [hattempt]
          exact hsettles
        cases first with
        | some first =>
          cases h
          refine ⟨[attempt], kept, ?_, .of_answer hsettled n⟩
          rw [List.flatMap_singleton, List.flatMap_singleton]
          exact hfirst
        | none =>
          obtain ⟨attempts, more, hrest, htries⟩ := ih h
          exact ⟨attempt :: attempts, kept ++ more, hfirst.trans hrest, htries.cons hsettled⟩

theorem fault_of_tryPoll {poll : Poll} {n : Nat} {e : SessionError} (hactive : s.aborted = false)
    (h : tryPoll poll n s = (.error e, s₁)) : ∃ f, e = .fault f := by
  induction n generalizing s with
  | zero => cases h
  | succ n ih =>
    unfold tryPoll at h
    rcases hput : putPoll poll s with ⟨e' | _, sent⟩
    · rw [hput] at h
      cases h
      exact fault_of_putPoll hput
    · rw [hput, Outcome.andThen_ok] at h
      have hsent : sent.aborted = false := (course_putPoll hput).aborted.trans hactive
      rcases hwait : awaitAnswer poll (sent.now + poll.timeout) sent with ⟨e' | first, waited⟩
      · rw [hwait] at h
        cases h
        exact fault_of_awaitAnswer hsent hwait
      · rw [hwait, Outcome.andThen_ok] at h
        cases first with
        | some first => cases h
        | none =>
          obtain ⟨_, _, _, hcourse, -⟩ := course_awaitAnswer hwait
          exact ih (hcourse.aborted.trans hsent) h

/-! ### Polls -/

/-- A poll in a session makes these attempts, keeps these messages and gets this answer. -/
structure Polled {σ : Type} [Link σ] (s : Session σ) (poll : Poll) (attempts : List Attempt)
    (kept : List Message) (answer : Option Answer) : Prop where
  result : (s.poll poll).1
    = answer.elim (.error (.pollTimeout poll.id.name (poll.retries + 1))) .ok
  tries : poll.Tries (poll.retries + 1) attempts kept answer
  uses : Call.uses s (.poll poll) = attempts.flatMap poll.usesOf
  hears : s.demux.Hears (attempts.flatMap Attempt.reads) (attempts.flatMap Attempt.heard)
    (s.poll poll).2.demux
  queue : (s.poll poll).2.pending = queued s.options.maxPending s.pending kept

/-- A poll meets a fault, or it ends as its attempts do. -/
theorem exchange_cases {poll : Poll} {r : Except SessionError Answer}
    (hcounted : poll.retries + 1 < UInt64.size) (hactive : s.aborted = false)
    (h : exchange poll s = (r, s₁)) :
    (∃ f, r = .error (.fault f))
      ∨ ∃ answer, tryPoll poll poll.attempts s = (.ok answer, s₁)
        ∧ r = answer.elim (.error (.pollTimeout poll.id.name (poll.retries + 1))) .ok := by
  unfold exchange at h
  rcases htry : tryPoll poll poll.attempts s with ⟨e | _ | answer, s'⟩ <;> rw [htry] at h
  · cases h
    obtain ⟨f, hf⟩ := fault_of_tryPoll hactive htry
    exact .inl ⟨f, congrArg Except.error hf⟩
  · cases h
    rw [Poll.attempts_eq hcounted]
    exact .inr ⟨none, rfl, rfl⟩
  · cases h
    exact .inr ⟨some answer, rfl, rfl⟩

/-- **A poll returns the first message that answers or refuses it, and disturbs nothing else.** -/
theorem firstAnswer_of_poll {σ : Type} [Link σ] {s : Session σ} {poll : Poll}
    (hcounted : poll.retries + 1 < UInt64.size) (hopen : s.phase.isOpen = true)
    (hactive : s.aborted = false)
    (hserved : ∀ use ∈ Call.uses s (.poll poll), use.fault? = none) :
    ∃ attempts kept answer, Polled s poll attempts kept answer := by
  obtain ⟨r, s₁, phase, hrun, hlogged, hself⟩ :=
    exists_exchange_logged hopen (exchange_mapLink Logged.isHom_link poll)
  have huses : Call.uses s (.poll poll) = s₁.link.uses :=
    congrArg (fun outcome => outcome.2.link.uses) hlogged
  have hpoll : s.poll poll = (r, { s₁.mapLink Logged.link with phase }) := hself
  rw [huses] at hserved
  have hfault := (hrun ▸ conduct_exchange poll _ : Conduct _ (r, s₁)).ne_fault hserved
  obtain ⟨f, hf⟩ | ⟨answer, htry, hresult⟩ := exchange_cases hcounted hactive hrun
  · exact absurd hf (hfault f)
  · rw [Poll.attempts_eq hcounted] at htry
    obtain ⟨attempts, kept, hcourse, htries⟩ := course_tryPoll htry
    refine ⟨attempts, kept, answer, ?_, htries, ?_, ?_, ?_⟩
    · rw [hpoll, ← hresult]
    · rw [huses, hcourse.log]
      rfl
    · rw [hpoll, ← Poll.filterMap_reading?_usesOf poll]
      exact hcourse.hears
    · rw [hpoll]
      exact hcourse.queue

/-- An open session that has read the answer to a poll, with another message before it. -/
def ofHeldAnswer : Session Script where
  name := ""
  options := {}
  link := {}
  demux := { buffer := Frame.encode ⟨⟨0x01, 0x61⟩, []⟩ ++ Frame.encode ⟨.monVer, []⟩ }
  phase := .ready

/-- The message before the answer is passed over. -/
theorem poll_ofHeldAnswer :
    (ofHeldAnswer.poll { id := .monVer }).1
      = .ok ⟨⟨.ubx, Frame.encode ⟨.monVer, []⟩, 2⟩, false⟩ := by
  obtain ⟨sent, demux, demux', hput, hother, hanswer⟩ : ∃ sent demux demux',
      putPoll { id := .monVer } { ofHeldAnswer with phase := .busy } = (.ok (), sent)
        ∧ sent.demux.next? = some (⟨.ubx, Frame.encode ⟨⟨0x01, 0x61⟩, []⟩, 1⟩, demux)
        ∧ demux.next? = some (⟨.ubx, Frame.encode ⟨.monVer, []⟩, 2⟩, demux') :=
    ⟨_, _, _, rfl, rfl, rfl⟩
  obtain ⟨passed, hpassed⟩ : ∃ passed,
      passed = keep { sent with demux } ⟨.ubx, Frame.encode ⟨⟨0x01, 0x61⟩, []⟩, 1⟩ := ⟨_, rfl⟩
  have htime : sent.now ≤ sent.now + millis 2000 := Nat.le_add_right _ _
  have hlater : passed.now ≤ sent.now + millis 2000 := by
    rw [hpassed, keep_eq]
    exact htime
  have hleft : passed.demux.next? = some (⟨.ubx, Frame.encode ⟨.monVer, []⟩, 2⟩, demux') := by
    rw [hpassed, keep_eq]
    exact hanswer
  have hwait : awaitAnswer { id := .monVer } (sent.now + millis 2000) sent
      = (.ok (some ⟨⟨.ubx, Frame.encode ⟨.monVer, []⟩, 2⟩, false⟩),
        { passed with demux := demux' }) := by
    rw [awaitAnswer_of_unrelated htime (receive_of_next? hother _ _) rfl, ← hpassed,
      awaitAnswer_of_answer hlater (receive_of_next? hleft _ _) rfl]
  have hopen : ofHeldAnswer.phase.isOpen = true := rfl
  simp only [Session.poll, whenOpen, if_pos hopen, whileBusy,
    exchange_of_awaitAnswer (by decide) hput hwait]

/-- The theorem holds of a poll whose answer is in the buffer already. -/
theorem firstAnswer_ofHeldAnswer :
    2 + 1 < UInt64.size ∧ ofHeldAnswer.phase.isOpen = true ∧ ofHeldAnswer.aborted = false
      ∧ (∀ use ∈ Call.uses ofHeldAnswer (.poll { id := .monVer }), use.fault? = none)
      ∧ ∃ attempts kept answer, Polled ofHeldAnswer { id := .monVer } attempts kept answer := by
  have herror : ((Call.poll { id := .monVer }).perform ofHeldAnswer).1.error? = none :=
    congrArg errorOf poll_ofHeldAnswer
  have hlife := life_of_isSettled (s := ofHeldAnswer) (.inr rfl) (.poll { id := .monVer })
  have hserved := hlife.served (by rw [herror]; nofun)
  have hcounted : 2 + 1 < UInt64.size := by decide
  exact ⟨hcounted, rfl, rfl, hserved, firstAnswer_of_poll hcounted rfl rfl hserved⟩

end Session
end GnssLink
