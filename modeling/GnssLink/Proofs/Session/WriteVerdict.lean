import GnssLink.Proofs.Session.Course
import GnssLink.Proofs.Session.Lifecycle
import GnssLink.Proofs.Session.Receiver
/-!
# GnssLink.Proofs.Session.WriteVerdict

**What a configuration write answers is what the acknowledgements say that it hears**
(`Session.verdict_of_sendBatch`). It goes on until all its messages are accepted, one of them is
rejected, or the time is over (`WriteEnd`), and takes nothing from the stream after the message
that decides. All other messages it hears are kept.
-/

namespace GnssLink

open GnssLink.Config (WriteMessage)
open GnssLink.Stream (Message)

/-- How a wait for `expected` acknowledgements ends, `acked` of which came before, and which
messages it hears. -/
inductive WriteEnd (expected acked : Nat) : List Message → Except SessionError Unit → Prop where
  /-- The last message heard is the last acknowledgement, unless none was left to wait for. -/
  | accepted {heard : List Message} {n : Nat} (all : acked + n = expected)
      (acks : heard.filterMap Message.ack? = List.replicate n true)
      (last : ∀ m ∈ heard.getLast?, m.ack? = some true) : WriteEnd expected acked heard (.ok ())
  /-- The last message heard is a rejection, which comes in the place of an acknowledgement. -/
  | rejected {before : List Message} {m : Message} {n : Nat} (few : acked + n < expected)
      (acks : before.filterMap Message.ack? = List.replicate n true) (no : m.ack? = some false) :
      WriteEnd expected acked (before ++ [m]) (.error (.configRejected (acked + n + 1) expected))
  | late {heard : List Message} {n : Nat} (few : acked + n < expected)
      (acks : heard.filterMap Message.ack? = List.replicate n true) :
      WriteEnd expected acked heard (.error (.configTimeout (acked + n) expected))

namespace WriteEnd

variable {expected acked : Nat} {heard : List Message} {m : Message}
  {r : Except SessionError Unit}

theorem of_le (hle : acked ≤ expected) (hdone : expected ≤ acked) :
    WriteEnd expected acked [] (.ok ()) :=
  .accepted (n := 0) (Nat.le_antisymm hle hdone) rfl nofun

theorem of_late (hfew : acked < expected) :
    WriteEnd expected acked [] (.error (.configTimeout acked expected)) :=
  .late (n := 0) hfew rfl

theorem of_rejection (hfew : acked < expected) (hno : m.ack? = some false) :
    WriteEnd expected acked [m] (.error (.configRejected (acked + 1) expected)) :=
  @rejected expected acked [] m 0 hfew rfl hno

/-- One more acknowledgement before the others. -/
theorem cons_ack (hack : m.ack? = some true) (h : WriteEnd expected (acked + 1) heard r) :
    WriteEnd expected acked (m :: heard) r := by
  have hfirst {rest : List Message} {n : Nat}
      (hacks : rest.filterMap Message.ack? = List.replicate n true) :
      (m :: rest).filterMap Message.ack? = List.replicate (n + 1) true := by
    rw [List.filterMap_cons_some hack, hacks, List.replicate_succ]
  have hcount (n : Nat) : acked + 1 + n = acked + (n + 1) := by omega
  cases h with
  | @accepted _ n all acks last =>
    refine .accepted ((hcount n).symm.trans all) (hfirst acks) ?_
    intro final hfinal
    cases heard with
    | nil =>
      cases hfinal
      exact hack
    | cons next rest =>
      rw [List.getLast?_cons_cons] at hfinal
      exact last final hfinal
  | @rejected before _ n few acks no =>
    rw [hcount] at few ⊢
    rw [← List.cons_append]
    exact .rejected few (hfirst acks) no
  | @late _ n few acks =>
    rw [hcount] at few ⊢
    exact .late few (hfirst acks)

/-- Any other message before the acknowledgements that are still missing. -/
theorem cons_other (hother : m.ack? = none) (hfew : acked < expected)
    (h : WriteEnd expected acked heard r) : WriteEnd expected acked (m :: heard) r := by
  have hrest (rest : List Message) :
      (m :: rest).filterMap Message.ack? = rest.filterMap Message.ack? :=
    List.filterMap_cons_none hother
  cases h with
  | @accepted _ n all acks last =>
    refine .accepted all ((hrest heard).trans acks) ?_
    intro final hfinal
    cases heard with
    | nil =>
      -- nothing was heard, so no acknowledgement was missing
      have hnone : n = 0 := by
        have hlength := congrArg List.length acks
        rwa [List.filterMap_nil, List.length_nil, List.length_replicate, eq_comm] at hlength
      omega
    | cons next rest =>
      rw [List.getLast?_cons_cons] at hfinal
      exact last final hfinal
  | @rejected before _ n few acks no =>
    rw [← List.cons_append]
    exact .rejected few ((hrest before).trans acks) no
  | late few acks => exact .late few ((hrest heard).trans acks)

end WriteEnd

/-- The messages that are no acknowledgements of configuration messages. -/
def otherMessages (heard : List Message) : List Message := heard.filter fun m => m.ack?.isNone

namespace Session

variable {σ : Type} [Link σ] {s s₁ : Session (Logged σ)}

/-- Frames that could all be written are so many uses of the link and nothing else. -/
theorem course_putAll {frames : List (List UInt8)} (h : putAll frames s = (.ok (), s₁)) :
    Course s (Use.writes frames) [] [] s₁ := by
  induction frames generalizing s with
  | nil =>
    cases h
    exact .refl _
  | cons data rest ih =>
    unfold putAll at h
    rcases hput : s.put data with ⟨e | _, sent⟩ <;> rw [hput] at h
    · cases h
    · exact (course_put hput).trans (ih h)

theorem fault_of_putAll {frames : List (List UInt8)} {e : SessionError}
    (h : putAll frames s = (.error e, s₁)) : ∃ f, e = .fault f := by
  induction frames generalizing s with
  | nil => cases h
  | cons data rest ih =>
    unfold putAll at h
    rcases hput : s.put data with ⟨e' | _, sent⟩ <;> rw [hput] at h
    · cases h
      exact fault_of_put hput
    · exact ih h

/-- A wait for acknowledgements keeps whatever else it hears. -/
theorem course_awaitAcks {expected acked deadline : Nat} {r : Except SessionError Unit}
    (hactive : s.aborted = false) (hle : acked ≤ expected)
    (h : awaitAcks expected acked deadline s = (r, s₁)) :
    (∃ f, r = .error (.fault f))
      ∨ ∃ reads heard, Course s (Use.reads reads) heard (otherMessages heard) s₁
        ∧ WriteEnd expected acked heard r := by
  -- the acknowledgements still missing are told by `acked`, which grows with each one that is heard
  fun_induction awaitAcks expected acked deadline s with
  | case1 acked deadline s hdone =>
    cases h
    exact .inr ⟨[], [], .refl _, .of_le hle hdone⟩
  | case2 acked deadline s hmore =>
    cases h
    exact .inr ⟨[], [], .refl _, .of_late (Nat.lt_of_not_le hmore)⟩
  | case3 acked deadline s _ _ e _ hr =>
    cases h
    obtain ⟨f, hf⟩ := fault_of_receive hactive hr
    exact .inl ⟨f, congrArg Except.error hf⟩
  | case4 acked deadline s hmore _ _ hr =>
    cases h
    obtain ⟨reads, hcourse⟩ := course_receive hr
    exact .inr ⟨reads, [], hcourse, .of_late (Nat.lt_of_not_le hmore)⟩
  | case5 acked deadline s hmore _ m s' hr _ hyes ih =>
    obtain ⟨reads, hcourse⟩ := course_receive hr
    have hack : m.ack? = some true := ack?_eq_some_iff.mpr hyes
    refine (ih (hcourse.aborted.trans hactive) (Nat.lt_of_not_le hmore) h).imp id ?_
    rintro ⟨more, heard, hrest, hend⟩
    refine ⟨reads ++ more, m :: heard, ?_, hend.cons_ack hack⟩
    have hothers : otherMessages (m :: heard) = otherMessages heard := by
      simp [otherMessages, hack]
    rw [Use.reads_append, hothers]
    exact hcourse.trans hrest
  | case6 acked deadline s hmore _ m s' hr _ _ hno =>
    cases h
    obtain ⟨reads, hcourse⟩ := course_receive hr
    have hnak : m.ack? = some false := ack?_eq_some_iff.mpr hno
    refine .inr ⟨reads, [m], ?_, .of_rejection (Nat.lt_of_not_le hmore) hnak⟩
    have hothers : otherMessages [m] = [] := by
      simp [otherMessages, hnak]
    rw [hothers]
    exact hcourse
  | case7 acked deadline s hmore _ m s' hr _ hyes hno ih =>
    obtain ⟨reads, hcourse⟩ := course_receive hr
    have hother : m.ack? = none := ack?_eq_none hyes hno
    -- the number of acknowledgements and the deadline stay as they are
    have hkept := hcourse.trans (.keep s' m)
    rw [List.append_nil] at hkept
    refine (ih (hkept.aborted.trans hactive) hle h).imp id ?_
    rintro ⟨more, heard, hrest, hend⟩
    refine ⟨reads ++ more, m :: heard, ?_, hend.cons_other hother (Nat.lt_of_not_le hmore)⟩
    have hothers : otherMessages (m :: heard) = m :: otherMessages heard := by
      simp [otherMessages, hother]
    rw [Use.reads_append, hothers]
    exact hkept.trans hrest

/-- A write meets a fault, or all its frames are written and a wait follows. -/
theorem course_applyBatch {batch : List WriteMessage} {r : Except SessionError Unit}
    (hactive : s.aborted = false) (h : applyBatch batch s = (r, s₁)) :
    (∃ f, r = .error (.fault f))
      ∨ ∃ reads heard, Course s (Use.writes (batch.map WriteMessage.frame) ++ Use.reads reads)
          heard (otherMessages heard) s₁
        ∧ WriteEnd batch.length 0 heard r := by
  unfold applyBatch at h
  rcases hput : putAll (batch.map WriteMessage.frame) s with ⟨e | _, sent⟩ <;> rw [hput] at h
  · cases h
    obtain ⟨f, hf⟩ := fault_of_putAll hput
    exact .inl ⟨f, congrArg Except.error hf⟩
  · have hsent := course_putAll hput
    refine (course_awaitAcks (hsent.aborted.trans hactive) (Nat.zero_le _) h).imp id ?_
    rintro ⟨reads, heard, hcourse, hend⟩
    exact ⟨reads, heard, hsent.trans hcourse, hend⟩

/-- A write in a session reads these bytes and hears these messages. -/
structure Applied {σ : Type} [Link σ] (s : Session σ) (batch : List WriteMessage)
    (reads : List (List UInt8)) (heard : List Message) : Prop where
  uses : Call.uses s (.sendBatch batch)
    = Use.writes (batch.map WriteMessage.frame) ++ Use.reads reads
  hears : s.demux.Hears reads heard (s.sendBatch batch).2.demux
  result : WriteEnd batch.length 0 heard (s.sendBatch batch).1
  queue : (s.sendBatch batch).2.pending
    = queued s.options.maxPending s.pending (otherMessages heard)

/-- **The verdict of a write is that of the acknowledgements it hears**, after all its messages were
sent. -/
theorem verdict_of_sendBatch {σ : Type} [Link σ] {s : Session σ} {batch : List WriteMessage}
    (hopen : s.phase.isOpen = true) (hactive : s.aborted = false)
    (hserved : ∀ use ∈ Call.uses s (.sendBatch batch), use.fault? = none) :
    ∃ reads heard, Applied s batch reads heard := by
  obtain ⟨r, s₁, phase, hrun, hlogged, hself⟩ :=
    exists_exchange_logged hopen (applyBatch_mapLink Logged.isHom_link batch)
  have huses : Call.uses s (.sendBatch batch) = s₁.link.uses :=
    congrArg (fun outcome => outcome.2.link.uses) hlogged
  have hsend : s.sendBatch batch = (r, { s₁.mapLink Logged.link with phase }) := hself
  rw [huses] at hserved
  have hfault := (hrun ▸ conduct_applyBatch batch _ : Conduct _ (r, s₁)).ne_fault hserved
  obtain ⟨f, hf⟩ | ⟨reads, heard, hcourse, hend⟩ := course_applyBatch hactive hrun
  · exact absurd hf (hfault f)
  · have hreads : (Use.writes (batch.map WriteMessage.frame) ++ Use.reads reads).filterMap
        Use.reading? = reads := by
      rw [List.filterMap_append, Use.filterMap_reading?_writes, Use.filterMap_reading?_reads,
        List.nil_append]
    refine ⟨reads, heard, ?_, ?_, ?_, ?_⟩
    · rw [huses, hcourse.log]
      rfl
    · rw [hsend, ← hreads]
      exact hcourse.hears
    · rw [hsend]
      exact hend
    · rw [hsend]
      exact hcourse.queue

/-- An open session that has read a rejection, after an acknowledgement of another message. -/
def ofHeldRejection : Session Script where
  name := ""
  options := {}
  link := {}
  demux := {
    buffer := Frame.encode ⟨.ackAck, MessageId.monVer.toBytes⟩
      ++ Frame.encode ⟨.ackNak, MessageId.cfgValset.toBytes⟩ }
  phase := .ready

/-- A write of one message. -/
def oneMessage : List WriteMessage := [⟨[], .none, 0, ""⟩]

/-- A message that is held is not waited for. -/
theorem awaitAcks_of_next? {σ : Type} [Link σ] {expected acked deadline : Nat} {s : Session σ}
    {m : Message} {demux : Stream.Demux} (hmore : acked < expected) (htime : s.now ≤ deadline)
    (hnext : s.demux.next? = some (m, demux)) :
    awaitAcks expected acked deadline s =
      if m.acknowledgement? = some ⟨true, .cfgValset⟩ then
        awaitAcks expected (acked + 1) (s.now + s.options.ackTimeout) { s with demux }
      else if m.acknowledgement? = some ⟨false, .cfgValset⟩ then
        (.error (.configRejected (acked + 1) expected), { s with demux })
      else awaitAcks expected acked deadline (keep { s with demux } m) := by
  rw [awaitAcks_eq, if_neg (Nat.not_le.mpr hmore), if_neg (Nat.not_lt.mpr htime),
    receive_of_next? hnext]
  rfl

/-- The acknowledgement of the other message does not count. -/
theorem sendBatch_ofHeldRejection :
    (ofHeldRejection.sendBatch oneMessage).1 = .error (.configRejected 1 1) := by
  obtain ⟨sent, demux, demux', hput, hother, hno⟩ : ∃ sent demux demux',
      putAll (oneMessage.map WriteMessage.frame) { ofHeldRejection with phase := .busy }
          = (.ok (), sent)
        ∧ sent.demux.next?
          = some (⟨.ubx, Frame.encode ⟨.ackAck, MessageId.monVer.toBytes⟩, 1⟩, demux)
        ∧ demux.next?
          = some (⟨.ubx, Frame.encode ⟨.ackNak, MessageId.cfgValset.toBytes⟩, 2⟩, demux') :=
    ⟨_, _, _, rfl, rfl, rfl⟩
  have htime : sent.now ≤ sent.now + sent.options.ackTimeout := Nat.le_add_right _ _
  obtain ⟨passed, hpassed⟩ : ∃ passed, passed = keep { sent with demux }
      ⟨.ubx, Frame.encode ⟨.ackAck, MessageId.monVer.toBytes⟩, 1⟩ := ⟨_, rfl⟩
  have hlater : passed.now ≤ sent.now + sent.options.ackTimeout := by
    rw [hpassed, keep_eq]
    exact htime
  have hleft : passed.demux.next?
      = some (⟨.ubx, Frame.encode ⟨.ackNak, MessageId.cfgValset.toBytes⟩, 2⟩, demux') := by
    rw [hpassed, keep_eq]
    exact hno
  have hacks : awaitAcks 1 0 (sent.now + sent.options.ackTimeout) sent
      = (.error (.configRejected 1 1), { passed with demux := demux' }) := by
    rw [awaitAcks_of_next? Nat.one_pos htime hother, if_neg (by decide), if_neg (by decide),
      ← hpassed, awaitAcks_of_next? Nat.one_pos hlater hleft, if_neg (by decide),
      if_pos (by decide)]
  have hopen : ofHeldRejection.phase.isOpen = true := rfl
  have hlength : oneMessage.length = 1 := rfl
  simp only [sendBatch, whenOpen, if_pos hopen, whileBusy, applyBatch, hput, hlength, hacks,
    Outcome.andThen_ok]

theorem verdict_ofHeldRejection :
    ofHeldRejection.phase.isOpen = true ∧ ofHeldRejection.aborted = false
      ∧ (∀ use ∈ Call.uses ofHeldRejection (.sendBatch oneMessage), use.fault? = none)
      ∧ ∃ reads heard, Applied ofHeldRejection oneMessage reads heard := by
  have herror : ((Call.sendBatch oneMessage).perform ofHeldRejection).1.error?
      = some (.configRejected 1 1) :=
    congrArg errorOf sendBatch_ofHeldRejection
  have hserved := (life_of_isSettled (.inr rfl) (.sendBatch oneMessage)).served
    (by rw [herror]; nofun)
  exact ⟨rfl, rfl, hserved, verdict_of_sendBatch rfl rfl hserved⟩

end Session
end GnssLink
