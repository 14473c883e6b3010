import GnssLink.Link.Script
import GnssLink.Proofs.Session.Receiver
/-!
# GnssLink.Proofs.Session.ScriptedReceiver

**A script that answers configuration messages is a receiver** (`Script.receiver`). Each of its
replies is one acknowledgement that arrives a fixed time after the message (`Script.Serves`).

A read of a script waits for `idleTime` where nothing has arrived, so what arrives is delivered up
to that much later.
-/

namespace GnssLink.Script

open GnssLink.Stream (Piece layout)

/-- The acknowledgement of a configuration message. -/
def ackBytes (accepted : Bool) : List UInt8 :=
  Frame.encode ⟨if accepted then .ackAck else .ackNak, MessageId.cfgValset.toBytes⟩

theorem layout_ackBytes (accepted : Bool) :
    layout (ackBytes accepted) = ([.frame .ubx (ackBytes accepted)], []) := by
  have hrecognize : Stream.recognize (ackBytes accepted) = .frame .ubx 10 := by
    cases accepted <;> decide
  have htake : (ackBytes accepted).take 10 = ackBytes accepted := by cases accepted <;> rfl
  have hdrop : (ackBytes accepted).drop 10 = [] := by cases accepted <;> rfl
  rw [Stream.layout_of_frame hrecognize, htake, hdrop, Stream.layout_nil]

theorem acks_ackBytes (accepted : Bool) : acks (ackBytes accepted) = [accepted] := by
  rw [acks, layout_ackBytes]
  cases accepted <;> rfl

/-- The arrival of an acknowledgement. -/
def ackArrival (a : Nat × Bool) : Arrival := ⟨a.1, .data (ackBytes a.2)⟩

/-- The bytes of one arrival. -/
def comingOf (a : Nat × Bool) : List Coming :=
  (ackBytes a.2).map fun byte => ⟨byte, a.1 + idleTime⟩

/-- The bytes that come where some acknowledgements arrive. -/
def ackComing (arrivals : List (Nat × Bool)) : List Coming := arrivals.flatMap comingOf

theorem bytesOf_comingOf (a : Nat × Bool) : bytesOf (comingOf a) = ackBytes a.2 := by
  rw [bytesOf, comingOf, List.map_map]
  exact List.map_id' _

theorem bytesOf_ackComing_cons (a : Nat × Bool) (rest : List (Nat × Bool)) :
    bytesOf (ackComing (a :: rest)) = ackBytes a.2 ++ bytesOf (ackComing rest) := by
  rw [ackComing, List.flatMap_cons, bytesOf_append, bytesOf_comingOf]
  rfl

/-- After whole frames the acknowledgements of a stream are those that it had and those that arrive.
-/
theorem acks_append_ackComing {past : List UInt8} (hpast : (layout past).2 = [])
    (arrivals : List (Nat × Bool)) :
    acks (past ++ bytesOf (ackComing arrivals)) = acks past ++ arrivals.map Prod.snd := by
  -- each acknowledgement is whole, so the stream is whole again before the next one
  induction arrivals generalizing past with
  | nil => simp [ackComing, bytesOf]
  | cons a rest ih =>
    have hwhole : (layout (past ++ ackBytes a.2)).2 = [] := by
      rw [Stream.layout_append_of_whole _ hpast, layout_ackBytes]
    rw [bytesOf_ackComing_cons, ← List.append_assoc, ih hwhole, acks_append, hpast,
      List.nil_append, acks_ackBytes, List.append_assoc]
    rfl

/-- A byte is due when the arrival that it belongs to can have been read. -/
theorem due_of_mem_ackComing {arrivals : List (Nat × Bool)} {next : Coming}
    (h : next ∈ ackComing arrivals) : ∃ a ∈ arrivals, next.due = a.1 + idleTime := by
  obtain ⟨a, ha, hnext⟩ := List.mem_flatMap.mp h
  obtain ⟨byte, -, rfl⟩ := List.mem_map.mp hnext
  exact ⟨a, ha, rfl⟩

/-- What is not earlier than the rest arrives after it. -/
theorem insertArrival_of_le {a : Arrival} {incoming : List Arrival}
    (h : ∀ b ∈ incoming, b.time ≤ a.time) : insertArrival a incoming = incoming ++ [a] := by
  induction incoming with
  | nil => rfl
  | cons b rest ih =>
    obtain ⟨hb, hrest⟩ := List.forall_mem_cons.mp h
    rw [insertArrival, if_neg (Nat.not_lt.mpr hb), ih hrest, List.cons_append]

/-- The script has replies for the frames of the plan, each an acknowledgement `delay` later, and
nothing but such acknowledgements arrives. -/
structure Serves (delay : Nat) (plan : Plan) (past : List UInt8) (arrivals : List (Nat × Bool))
    (s : Script) : Prop where
  whole : (layout past).2 = []
  arrives : s.incoming = arrivals.map ackArrival
  soon : ∀ a ∈ arrivals, a.1 ≤ s.now + delay
  rules : s.rules = [⟨.cfgValset, plan.map fun p => [⟨delay, .data (ackBytes p.2)⟩]⟩]
  frames : ∀ p ∈ plan, idOf? p.1 = some .cfgValset
  writable : s.failWrite = none
  heard : s.goodBaud = none

namespace Serves

variable {delay : Nat} {plan : Plan} {past : List UInt8} {arrivals : List (Nat × Bool)} {s : Script}

/-- Time that passes changes nothing else. -/
theorem wait (h : Serves delay plan past arrivals s) (d : Nat) :
    Serves delay plan past arrivals (s.wait d) :=
  ⟨h.whole, h.arrives, fun a ha => Nat.le_trans (h.soon a ha) (by simp only [Script.wait]; omega),
    h.rules, h.frames, h.writable, h.heard⟩

/-- What has not arrived yet is waited for. -/
theorem read_of_early {t : Nat} {accepted : Bool}
    (h : Serves delay plan past ((t, accepted) :: arrivals) s) (htime : s.now < t) :
    s.read = (.ok [], s.wait idleTime) := by
  have harrives := h.arrives
  rw [List.map_cons] at harrives
  rw [read, harrives]
  exact if_pos htime

/-- An acknowledgement fits into one read. -/
theorem read_of_arrived {t : Nat} {accepted : Bool}
    (h : Serves delay plan past ((t, accepted) :: arrivals) s) (htime : ¬s.now < t) :
    s.read = (.ok (ackBytes accepted), { s with incoming := arrivals.map ackArrival }) := by
  have harrives := h.arrives
  rw [List.map_cons] at harrives
  have htake : (ackBytes accepted).take readSize = ackBytes accepted := by cases accepted <;> rfl
  have hdrop : (ackBytes accepted).drop readSize = [] := by cases accepted <;> rfl
  rw [read, harrives]
  show (if s.now < t then _ else _) = _
  rw [if_neg htime]
  simp only [ackArrival, htake, hdrop, List.isEmpty_nil, ↓reduceIte]

/-- A frame of the plan is answered after everything that is on its way: the delay is the same for
all. -/
theorem write {frame : List UInt8} {accepted : Bool}
    (h : Serves delay ((frame, accepted) :: plan) past arrivals s) :
    ∃ s', Script.write frame s = (.ok (), s') ∧ s'.now = s.now
      ∧ Serves delay plan past (arrivals ++ [(s.now + delay, accepted)]) s' := by
  obtain ⟨hid, hframes⟩ := List.forall_mem_cons.mp h.frames
  have hreply : takeReply .cfgValset s.rules = ([⟨delay, .data (ackBytes accepted)⟩],
      [⟨.cfgValset, plan.map fun p => [⟨delay, .data (ackBytes p.2)⟩]⟩]) := by
    rw [h.rules]
    rfl
  have hinsert : insertArrival ⟨s.now + delay, .data (ackBytes accepted)⟩ s.incoming
      = (arrivals ++ [(s.now + delay, accepted)]).map ackArrival := by
    rw [h.arrives, insertArrival_of_le, List.map_append]
    · rfl
    · intro b hb
      obtain ⟨a, ha, rfl⟩ := List.mem_map.mp hb
      exact h.soon a ha
  have hwrite : Script.write frame s = (.ok (), { s with
      writes := s.writes + 1
      written := s.written ++ [frame]
      rules := [⟨.cfgValset, plan.map fun p => [⟨delay, .data (ackBytes p.2)⟩]⟩]
      incoming := (arrivals ++ [(s.now + delay, accepted)]).map ackArrival }) := by
    unfold Script.write
    simp only [h.writable, Option.any_none, Bool.false_eq_true, ↓reduceIte, isHeard, h.heard,
      Option.isNone_none, Bool.true_or, respond, hid, hreply, scheduleAll, List.foldl_cons,
      List.foldl_nil, schedule, hinsert]
  refine ⟨_, hwrite, rfl, h.whole, rfl, ?_, rfl, hframes, h.writable, h.heard⟩
  intro a ha
  rcases List.mem_append.mp ha with ha | ha
  · exact h.soon a ha
  · obtain rfl := List.mem_singleton.mp ha
    exact Nat.le_refl _

end Serves

/-- **The script is a receiver** if its replies come soon enough. -/
def receiver (delay timeout : Nat) (hsoon : delay + idleTime ≤ timeout) :
    Receiver Script timeout where
  Serves plan past coming s :=
    ∃ arrivals, coming = ackComing arrivals ∧ Serves delay plan past arrivals s
  timeout_pos := Nat.lt_of_lt_of_le (by decide : 0 < idleTime) (Nat.le_trans (by omega) hsoon)
  read := by
    rintro plan past _ s ⟨arrivals, rfl, h⟩
    have hidle : s.now < (s.wait idleTime).now := Nat.lt_add_of_pos_right (by decide)
    have hsame : Serves delay plan (past ++ bytesOf []) arrivals (s.wait idleTime) := by
      show Serves delay plan (past ++ []) arrivals (s.wait idleTime)
      rw [List.append_nil]
      exact h.wait idleTime
    cases arrivals with
    | nil =>
      have hread : s.read = (.ok [], s.wait idleTime) := by
        rw [Script.read, h.arrives]
        rfl
      exact ⟨[], [], _, rfl, hread, ⟨[], rfl, hsame⟩, Nat.le_of_lt hidle, nofun⟩
    | cons a rest =>
      obtain ⟨t, accepted⟩ := a
      by_cases htime : s.now < t
      · refine ⟨[], _, _, rfl, h.read_of_early htime, ⟨_, rfl, hsame⟩, Nat.le_of_lt hidle, ?_⟩
        intro first hfirst
        have hdue : first.due = t + idleTime := by
          cases accepted <;> cases hfirst <;> rfl
        rw [hdue]
        exact .inl (Nat.add_lt_add_right htime idleTime)
      · refine ⟨comingOf (t, accepted), ackComing rest,
          { s with incoming := rest.map ackArrival }, rfl, ?_, ⟨rest, rfl, ?_⟩, Nat.le_refl _, ?_⟩
        · rw [bytesOf_comingOf]
          exact h.read_of_arrived htime
        · rw [bytesOf_comingOf]
          refine ⟨?_, rfl, fun a ha => h.soon a (List.mem_cons_of_mem _ ha), h.rules, h.frames,
            h.writable, h.heard⟩
          rw [Stream.layout_append_of_whole _ h.whole, layout_ackBytes]
        · intro _ _
          exact .inr ⟨rfl, by cases accepted <;> exact List.cons_ne_nil _ _⟩
  write := by
    rintro frame accepted plan past _ s ⟨arrivals, rfl, h⟩
    obtain ⟨s', hwrite, hnow, h'⟩ := h.write
    refine ⟨_, s', hwrite, ⟨_, rfl, h'⟩, Nat.le_of_eq hnow.symm, ?_, ?_⟩
    · rw [acks_append_ackComing h.whole, acks_append_ackComing h.whole, List.map_append,
        List.append_assoc]
      rfl
    · intro x next y hsplit _
      have hnext : next ∈ ackComing (arrivals ++ [(s.now + delay, accepted)]) := by
        rw [hsplit]
        exact List.mem_append_right x List.mem_cons_self
      obtain ⟨a, ha, hdue⟩ := due_of_mem_ackComing hnext
      have hsoon' := h'.soon a ha
      rw [hdue]
      show a.1 + idleTime ≤ s'.now + timeout
      omega

end GnssLink.Script
