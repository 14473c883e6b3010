import GnssLink.Proofs.Link.Logged
import GnssLink.Proofs.Session.LinkMap
/-!
# GnssLink.Proofs.Session.Conduct

**What an operation does with its link, and how it ends.** A call is observed by giving the session
a log of its link, which changes nothing else (`Call.perform_logged`). Each part of an operation
ends in one of three ways (`Session.Conduct`): with a result or an error of its own after the link
did all that it was used for, and in the phase in which it began; or with a fault of the link, which
is then the last use of it, in a closed session.
-/

namespace GnssLink

open GnssLink.Config (Layer WriteMessage)

variable {σ : Type}

/-- Forgetting the log is a map under which links answer alike. -/
theorem Logged.isHom_link [Link σ] : Link.IsHom (Logged.link : Logged σ → σ) where
  now _ := rfl
  baudRate _ := rfl
  read _ := rfl
  write _ _ := rfl
  setBaudRate _ _ := rfl
  clearInput _ := rfl

/-- The session with a log of its link, in which there is nothing yet. -/
def Session.logged (s : Session σ) : Session (Logged σ) := s.mapLink fun link => { link }

/-- What a call does with the link of a session. -/
def Call.uses [Link σ] (s : Session σ) (call : Call) : List Use :=
  (call.perform s.logged).2.link.uses

/-- The log changes nothing. -/
theorem Call.perform_logged [Link σ] (s : Session σ) (call : Call) :
    call.perform s = (call.perform s.logged).map id (Session.mapLink Logged.link) :=
  perform_mapLink Logged.isHom_link s.logged call

/-- Whether the error is about what was asked for or what the receiver answered, and neither about
the link nor about the session. -/
def SessionError.isOwn : SessionError → Bool
  | fault _ | noBaudRate | notOpen => false
  | receiverNotFound _ | aborted | pollTimeout _ _ | configTimeout _ _ | configRejected _ _
  | write _ | codec _ => true

namespace Session

/-- The link did all that it was used for from one session to the other. -/
def Served (s s' : Session (Logged σ)) : Prop :=
  ∃ uses, s'.link.uses = s.link.uses ++ uses ∧ ∀ use ∈ uses, use.fault? = none

namespace Served

variable {s s₁ s₂ : Session (Logged σ)}

theorem of_eq (h : s₁.link.uses = s.link.uses) : Served s s₁ :=
  ⟨[], by simp [h], nofun⟩

theorem of_use {use : Use} (huses : s₁.link.uses = s.link.uses ++ [use])
    (hfault : use.fault? = none) : Served s s₁ :=
  ⟨[use], huses, by simp [hfault]⟩

theorem trans (h : Served s s₁) (hmore : Served s₁ s₂) : Served s s₂ := by
  obtain ⟨uses, huses, hdone⟩ := h
  obtain ⟨more, hmore, hmoreDone⟩ := hmore
  refine ⟨uses ++ more, ?_, ?_⟩
  · rw [hmore, huses, List.append_assoc]
  · intro use hmem
    rcases List.mem_append.mp hmem with h | h
    · exact hdone use h
    · exact hmoreDone use h

end Served

/-- How a part of an operation ends. -/
inductive Conduct {α : Type} (s : Session (Logged σ)) : Outcome (Logged σ) α → Prop where
  | ok {a : α} {s' : Session (Logged σ)} (served : Served s s') (phase : s'.phase = s.phase) :
      Conduct s (.ok a, s')
  | error {e : SessionError} {s' : Session (Logged σ)} (own : e.isOwn = true)
      (served : Served s s') (phase : s'.phase = s.phase) : Conduct s (.error e, s')
  | fault {f : Fault} {use : Use} {s₁ s' : Session (Logged σ)} (served : Served s s₁)
      (last : s'.link.uses = s₁.link.uses ++ [use]) (failed : use.fault? = some f)
      (closed : s'.phase = .closed) : Conduct s (.error (.fault f), s')

namespace Conduct

variable {α β : Type} {s s₁ : Session (Logged σ)}

/-- What ends well or badly after a part that was served ends so as a whole. -/
theorem after {outcome : Outcome (Logged σ) α} (hserved : Served s s₁)
    (hphase : s₁.phase = s.phase) (h : Conduct s₁ outcome) : Conduct s outcome := by
  cases h with
  | ok served phase => exact .ok (hserved.trans served) (phase.trans hphase)
  | error own served phase => exact .error own (hserved.trans served) (phase.trans hphase)
  | fault served last failed closed => exact .fault (hserved.trans served) last failed closed

/-- An error means the same whatever the result would have been. -/
theorem of_error {e : SessionError} (h : Conduct s ((.error e, s₁) : Outcome (Logged σ) α)) :
    Conduct s ((.error e, s₁) : Outcome (Logged σ) β) := by
  cases h with
  | error own served phase => exact .error own served phase
  | fault served last failed closed => exact .fault served last failed closed

/-- Two steps end as the second does, or as the first if that does not succeed. -/
theorem andThen {outcome : Outcome (Logged σ) α}
    {next : α → Session (Logged σ) → Outcome (Logged σ) β} (h : Conduct s outcome)
    (hnext : ∀ a s', Conduct s' (next a s')) : Conduct s (outcome.andThen next) := by
  cases h with
  | ok served phase => exact (hnext _ _).after served phase
  | error own served phase => exact .error own served phase
  | fault served last failed closed => exact .fault served last failed closed

/-- What is done with a success and does not use the session. -/
theorem thenOk {outcome : Outcome (Logged σ) α} (h : Conduct s outcome) (g : α → β) :
    Conduct s (outcome.andThen fun a s => (.ok (g a), s)) :=
  h.andThen fun _ _ => .ok (.of_eq rfl) rfl

end Conduct

theorem served_keep (s : Session (Logged σ)) (m : Stream.Message) : Served s (s.keep m) := by
  unfold keep
  split <;> exact .of_eq rfl

theorem phase_keep (s : Session σ) (m : Stream.Message) : (s.keep m).phase = s.phase := by
  unfold keep
  split <;> rfl

theorem Conduct.afterKeep {α : Type} {s : Session (Logged σ)} {m : Stream.Message}
    {outcome : Outcome (Logged σ) α} (h : Conduct (s.keep m) outcome) : Conduct s outcome :=
  h.after (served_keep s m) (phase_keep s m)

variable [Link σ] {s s₁ : Session (Logged σ)}

theorem conduct_put (s : Session (Logged σ)) (data : List UInt8) : Conduct s (s.put data) := by
  unfold put
  split
  · next hwrite =>
    obtain ⟨-, huses⟩ := Logged.eq_of_enter hwrite
    exact .ok (.of_use huses rfl) rfl
  · next hwrite =>
    obtain ⟨-, huses⟩ := Logged.eq_of_enter hwrite
    exact .fault (.of_eq rfl) huses rfl rfl

theorem conduct_putAll (frames : List (List UInt8)) (s : Session (Logged σ)) :
    Conduct s (putAll frames s) := by
  induction frames generalizing s with
  | nil => exact .ok (.of_eq rfl) rfl
  | cons data rest ih => exact (conduct_put s data).andThen fun _ s' => ih s'

/-- A wait fails if the user gives up or a read fails, and the failing read is the last one. -/
theorem conduct_receive (s : Session (Logged σ)) (deadline : Nat) (attempted : Bool) :
    Conduct s (s.receive deadline attempted) := by
  -- every read but the last was served, which is what the hypothesis is extended by
  fun_induction receive s deadline attempted with
  | case1 => exact .ok (.of_eq rfl) rfl
  | case2 => exact .ok (.of_eq rfl) rfl
  | case3 => exact .error rfl (.of_eq rfl) rfl
  | case4 s _ _ _ _ f link hread =>
    obtain ⟨-, huses⟩ := Logged.eq_of_enter hread
    exact .fault (.of_eq rfl) huses rfl rfl
  | case5 s _ _ _ _ data link hread _ _ ih =>
    obtain ⟨-, huses⟩ := Logged.eq_of_enter hread
    have hserved : Served s { s with link, demux := s.demux.add data } := .of_use huses rfl
    exact ih.after hserved rfl

/-- How a receive ended, whatever it received. -/
theorem conduct_of_receive {deadline : Nat} {r : Except SessionError (Option Stream.Message)}
    (hr : s.receive deadline false = (r, s₁)) : Conduct s (r, s₁) := by
  rw [← hr]
  exact conduct_receive s deadline false

/-- What is done with a message that was received. -/
theorem Conduct.afterReceive {α : Type} {deadline : Nat} {m : Stream.Message}
    {outcome : Outcome (Logged σ) α} (hr : s.receive deadline false = (.ok (some m), s₁))
    (h : Conduct s₁ outcome) : Conduct s outcome := by
  cases conduct_of_receive hr with
  | ok served phase => exact h.after served phase

/-! ### Operations -/

/-- A wait for an answer is a series of waits for messages and ends as the last of them. -/
theorem conduct_awaitAnswer (poll : Poll) (deadline : Nat) (s : Session (Logged σ)) :
    Conduct s (awaitAnswer poll deadline s) := by
  fun_induction awaitAnswer poll deadline s with
  | case1 => exact .ok (.of_eq rfl) rfl
  | case2 s _ e s₁ hr =>
    exact (conduct_of_receive hr).of_error
  | case3 s _ s₁ hr =>
    exact (conduct_of_receive hr).thenOk fun _ => none
  | case4 s _ m s₁ hr => exact Conduct.afterReceive hr (.ok (.of_eq rfl) rfl)
  | case5 s _ m s₁ hr => exact Conduct.afterReceive hr (.ok (.of_eq rfl) rfl)
  | case6 s _ m s₁ hr _ _ ih => exact Conduct.afterReceive hr ih.afterKeep

theorem conduct_tryPoll (poll : Poll) (n : Nat) (s : Session (Logged σ)) :
    Conduct s (tryPoll poll n s) := by
  have hput (s : Session (Logged σ)) : Conduct s (putPoll poll s) := by
    unfold putPoll
    split
    · exact .ok (.of_eq rfl) rfl
    · exact conduct_put s poll.frame
  induction n generalizing s with
  | zero => exact .ok (.of_eq rfl) rfl
  | succ n ih =>
    refine (hput s).andThen ?_
    intro _ s₁
    refine (conduct_awaitAnswer poll _ s₁).andThen ?_
    intro answer s₂
    cases answer with
    | none => exact ih s₂
    | some answer => exact .ok (.of_eq rfl) rfl

/-- Using up the attempts is an error of the poll, which the session survives. -/
theorem conduct_exchange (poll : Poll) (s : Session (Logged σ)) :
    Conduct s (exchange poll s) := by
  refine (conduct_tryPoll poll poll.attempts s).andThen ?_
  intro answer s₁
  cases answer with
  | none => exact .error rfl (.of_eq rfl) rfl
  | some answer => exact .ok (.of_eq rfl) rfl

/-- A verdict against the batch and a verdict that does not come are errors of the write. -/
theorem conduct_awaitAcks (expected acked deadline : Nat) (s : Session (Logged σ)) :
    Conduct s (awaitAcks expected acked deadline s) := by
  fun_induction awaitAcks expected acked deadline s with
  | case1 => exact .ok (.of_eq rfl) rfl
  | case2 => exact .error rfl (.of_eq rfl) rfl
  | case3 acked deadline s _ _ e s₁ hr =>
    exact (conduct_of_receive hr).of_error
  | case4 acked deadline s _ _ s₁ hr =>
    cases conduct_of_receive hr with
    | ok served phase => exact .error rfl served phase
  | case5 acked deadline s _ _ m s₁ hr _ _ ih => exact Conduct.afterReceive hr ih
  | case6 acked deadline s _ _ m s₁ hr =>
    exact Conduct.afterReceive hr (.error rfl (.of_eq rfl) rfl)
  | case7 acked deadline s _ _ m s₁ hr _ _ _ ih => exact Conduct.afterReceive hr ih.afterKeep

theorem conduct_applyBatch (batch : List WriteMessage) (s : Session (Logged σ)) :
    Conduct s (applyBatch batch s) :=
  (conduct_putAll _ s).andThen fun _ s₁ => conduct_awaitAcks batch.length 0 _ s₁

/-- A page that is refused or cannot be read is an error of the read. -/
theorem conduct_readPages (layer : Layer) (keys : List UInt32) (position : UInt16)
    (s : Session (Logged σ)) : Conduct s (readPages layer keys position s) := by
  have hpage {position : UInt16} {s s₁ : Session (Logged σ)} {r : Except SessionError Answer}
      (hpoll : exchange (pagePoll layer position keys) s = (r, s₁)) : Conduct s (r, s₁) := by
    rw [← hpoll]
    exact conduct_exchange _ s
  fun_induction readPages layer keys position s with
  | case1 position s e s₁ hpoll => exact (hpage hpoll).of_error
  | case2 s answer s₁ _ hpoll =>
    cases hpage hpoll with
    | ok served phase => exact .error rfl served phase
  | case3 position s answer s₁ hpoll =>
    exact (hpage hpoll).thenOk fun _ => []
  | case4 position s answer s₁ hpoll _ e =>
    cases hpage hpoll with
    | ok served phase => exact .error rfl served phase
  | case5 position s answer s₁ hpoll _ items =>
    exact (hpage hpoll).thenOk fun _ => items
  | case6 position s answer s₁ hpoll _ items _ _ _ ih =>
    -- a fault while later pages are read comes after a page that was served
    cases hpage hpoll with
    | ok served phase => exact (ih.thenOk fun more => items ++ more).after served phase

theorem conduct_readAll (layer : Layer) (lists : List (List UInt32)) (s : Session (Logged σ)) :
    Conduct s (readAll layer lists s) := by
  induction lists generalizing s with
  | nil => exact .ok (.of_eq rfl) rfl
  | cons keys rest ih =>
    refine (conduct_readPages layer keys 0 s).andThen ?_
    intro items s₁
    exact (ih s₁).thenOk fun more => items ++ more

/-! ### Detection -/

/-- The link is used twice, and the second use is made only if the first is served. -/
theorem conduct_switchBaudRate (baud : UInt32) (s : Session (Logged σ)) :
    Conduct s (switchBaudRate baud s) := by
  unfold switchBaudRate
  split
  · next hset =>
    obtain ⟨-, huses⟩ := Logged.eq_of_enter hset
    exact .fault (.of_eq rfl) huses rfl rfl
  · next link hset =>
    obtain ⟨-, huses⟩ := Logged.eq_of_enter hset
    -- the rate is set; what follows happens after a use that was served
    have hserved : Served s { s with link } := .of_use huses rfl
    split
    · next hclear =>
      obtain ⟨-, hmore⟩ := Logged.eq_of_enter hclear
      exact .fault hserved hmore rfl rfl
    · next hclear =>
      obtain ⟨-, hmore⟩ := Logged.eq_of_enter hclear
      exact .ok (hserved.trans (.of_use hmore rfl)) rfl

/-- A poll of the version that is not answered is no error. -/
theorem conduct_probe (s : Session (Logged σ)) : Conduct s (probe s) := by
  have h := conduct_exchange (versionPoll s.options) s
  unfold probe
  split
  · next hpoll =>
    rw [hpoll] at h
    cases h with
    | ok served phase => split <;> exact .ok (served.trans (.of_eq rfl)) phase
  · next hpoll =>
    rw [hpoll] at h
    cases h with
    | error _ served phase => exact .ok served phase
  · next hpoll =>
    rw [hpoll] at h
    exact h.of_error

theorem conduct_search (candidates : List (Option UInt32)) (s : Session (Logged σ)) :
    Conduct s (search candidates s) := by
  have hswitch (candidate : Option UInt32) (s : Session (Logged σ)) :
      Conduct s (switchTo candidate s) := by
    cases candidate with
    | none => exact .ok (.of_eq rfl) rfl
    | some baud => exact conduct_switchBaudRate baud s
  induction candidates generalizing s with
  | nil => exact .error rfl (.of_eq rfl) rfl
  | cons candidate rest ih =>
    refine (hswitch candidate s).andThen ?_
    intro _ s₁
    refine (conduct_probe s₁).andThen ?_
    intro found s₂
    cases found with
    | true => exact .ok (.of_eq rfl) rfl
    | false => exact ih s₂

theorem conduct_detect (s : Session (Logged σ)) : Conduct s (detect s) := by
  have hfixed : Conduct s (applyFixedRate s) := by
    unfold applyFixedRate
    split
    · split
      · exact conduct_switchBaudRate _ s
      · exact .ok (.of_eq rfl) rfl
    · exact .ok (.of_eq rfl) rfl
  refine hfixed.andThen ?_
  intro _ s₁
  split
  · exact conduct_search _ s₁
  · exact .ok (.of_eq rfl) rfl

end Session
end GnssLink
