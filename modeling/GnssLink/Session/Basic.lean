import GnssLink.Link.Basic
import GnssLink.Session.Error
import GnssLink.Session.Options
import GnssLink.Stream.Demux
/-!
# GnssLink.Session.Basic

**A session with one receiver.** A session owns its link: it reads messages from it and writes
frames to it. Operations are functions from a session to a result and the session after it
(`Outcome`).

Design points:

* Every wait has a deadline, and something is read at least once before the time counts
  (`receive`). It ends because each read uses up supply or time.
* A message that nobody waits for is kept (`keep`) and handed out later, before anything new is
  read. When too many are kept the oldest is dropped.
* A fault closes the session, and a closed session never touches its link again.
-/

namespace GnssLink

open GnssLink.Stream (Demux Message)

/-- Where a session is in its life. -/
inductive Phase where
  /-- The session holds its link and was not opened yet. -/
  | fresh
  /-- The receiver is looked for. -/
  | detecting
  /-- The session is open. -/
  | ready
  /-- The session is open, and an exchange is going on. -/
  | busy
  /-- The session gave up its link. -/
  | closed
  deriving DecidableEq, Repr

/-- Whether the session may be used. -/
def Phase.isOpen : Phase → Bool
  | fresh | closed => false
  | detecting | ready | busy => true

/-- A session over a link with states `σ`. -/
structure Session (σ : Type) where
  /-- The name of the place where the receiver is looked for. -/
  name : String
  options : Options
  link : σ
  /-- The bytes read and the messages cut from them. -/
  demux : Demux := {}
  /-- Messages kept for later, the oldest first. -/
  pending : List Message := []
  /-- Where the session is in its life. -/
  phase : Phase := .fresh
  /-- The receiver's version, if it gave one. -/
  version : Option String := none
  /-- Whether the user gave up. -/
  aborted : Bool := false

/-- What an operation answers, and the session after it. -/
abbrev Outcome (σ α : Type) := Except SessionError α × Session σ

/-- Goes on after a success. -/
def Outcome.andThen {σ α β : Type} (outcome : Outcome σ α)
    (next : α → Session σ → Outcome σ β) : Outcome σ β :=
  match outcome with
  | (.ok a, s) => next a s
  | (.error e, s) => (.error e, s)

@[simp] theorem Outcome.andThen_ok {σ α β : Type} (a : α) (s : Session σ)
    (next : α → Session σ → Outcome σ β) :
    Outcome.andThen (.ok a, s) next = next a s := rfl

@[simp] theorem Outcome.andThen_error {σ α β : Type} (e : SessionError) (s : Session σ)
    (next : α → Session σ → Outcome σ β) :
    Outcome.andThen (.error e, s) next = (.error e, s) := rfl

namespace Session

variable {σ : Type}

/-- Gives up the link. Closing twice is fine. -/
def close (s : Session σ) : Session σ := { s with phase := .closed }

/-- Gives up the link after a fault. -/
def fail {α : Type} (s : Session σ) (f : Fault) : Outcome σ α := (.error (.fault f), s.close)

/-- Gives up waiting: every wait that would read fails until `resume`. -/
def abort (s : Session σ) : Session σ := { s with aborted := true }

/-- Waits again. -/
def resume (s : Session σ) : Session σ := { s with aborted := false }

/-- Keeps a message for later; where the limit is reached, the oldest one is dropped for it. -/
def keep (s : Session σ) (m : Message) : Session σ :=
  if s.options.maxPending ≤ s.pending.length then { s with pending := s.pending.drop 1 ++ [m] }
  else { s with pending := s.pending ++ [m] }

/-- Runs an operation on an open session. -/
def whenOpen {α : Type} (s : Session σ) (run : Session σ → Outcome σ α) : Outcome σ α :=
  if s.phase.isOpen then run s else (.error .notOpen, s)

/-- Runs an exchange, after which the session is ready unless it was closed. -/
def whileBusy {α : Type} (s : Session σ) (run : Session σ → Outcome σ α) : Outcome σ α :=
  match run { s with phase := .busy } with
  | (r, s) => (r, if s.phase = .busy then { s with phase := .ready } else s)

variable [Link σ]

/-- The time at the link. -/
def now (s : Session σ) : Nat := Link.now s.link

/-- The baud rate of the link, as long as the session holds it. -/
def baudRate (s : Session σ) : Option UInt32 :=
  if s.phase = .closed then none else Link.baudRate s.link

/-- Writes bytes. -/
def put (s : Session σ) (data : List UInt8) : Outcome σ Unit :=
  match Link.write data s.link with
  | (.ok (), link) => (.ok (), { s with link })
  | (.error f, link) => { s with link }.fail f

/-- Writes several frames in order. -/
def putAll : List (List UInt8) → Session σ → Outcome σ Unit
  | [], s => (.ok (), s)
  | data :: rest, s => (s.put data).andThen fun _ s => putAll rest s

/-! ### Waiting for messages -/

/-- The next message of the stream, or `none` if none came until the deadline. What was read before
is used first; then something is read at least once, or once more if `attempted` is false. -/
def receive (s : Session σ) (deadline : Nat) (attempted : Bool) : Outcome σ (Option Message) :=
  match s.demux.next? with
  | some (m, demux) => (.ok (some m), { s with demux })
  | none =>
    if attempted ∧ deadline ≤ s.now then (.ok none, s)
    else if s.aborted then (.error .aborted, s)
    else
      match h : Link.read s.link with
      | (.error f, link) => { s with link }.fail f
      | (.ok data, link) =>
        have _ := Link.supply_of_read h
        have _ := Link.progress_of_read h
        { s with link, demux := s.demux.add data }.receive deadline true
termination_by (Link.supply s.link, deadline - s.now, if attempted then 0 else 1)
decreasing_by
  next hwait _ hsupply hprogress =>
  simp only [now] at hwait ⊢
  rcases hprogress with hlt | hlt
  · exact Prod.Lex.left _ _ hlt
  · rcases Nat.lt_or_ge (Link.supply link) (Link.supply s.link) with hlt' | hge
    · exact Prod.Lex.left _ _ hlt'
    · have heq : Link.supply link = Link.supply s.link := by omega
      rw [heq]
      apply Prod.Lex.right
      by_cases hdone : deadline ≤ Link.now s.link
      · have hfirst : attempted = false := by
          cases attempted
          · rfl
          · exact absurd ⟨rfl, hdone⟩ hwait
        have h₀ : deadline - Link.now link = deadline - Link.now s.link := by omega
        rw [h₀, hfirst]
        exact Prod.Lex.right _ (by simp)
      · exact Prod.Lex.left _ _ (by omega)

/-- The bytes that a session may still cut into messages. -/
def backlog (s : Session σ) : Nat := Link.supply s.link + s.demux.buffer.length

/-- Every message received is cut from the backlog. -/
theorem backlog_lt_of_receive {s s' : Session σ} {deadline : Nat} {attempted : Bool}
    {m : Message} (h : s.receive deadline attempted = (.ok (some m), s')) :
    s'.backlog < s.backlog := by
  fun_induction receive s deadline attempted with
  | case1 s attempted m demux hm =>
    cases h
    have := Stream.Demux.length_lt_of_next? hm
    simp only [backlog]
    omega
  | case2 => cases h
  | case3 => cases h
  | case4 => cases h
  | case5 s attempted hm hwait hab data link hr _ _ ih =>
    have := Link.supply_of_read hr
    have := ih h
    simp only [backlog, Stream.Demux.add, List.length_append] at this ⊢
    omega

@[simp] theorem backlog_keep (s : Session σ) (m : Message) : (s.keep m).backlog = s.backlog := by
  unfold keep
  split <;> rfl

theorem backlog_put_le (s : Session σ) (data : List UInt8) : (s.put data).2.backlog ≤ s.backlog := by
  have h := Link.supply_write_le data s.link
  unfold put
  split <;> next hw => rw [hw] at h; simp only [fail, close, backlog] at h ⊢; omega

/-- The next message: one that was kept, or else one from the link until the deadline. -/
def nextMessage (s : Session σ) (timeout : Nat) : Outcome σ (Option Message) :=
  s.whenOpen fun s =>
    match s.pending with
    | m :: rest => (.ok (some m), { s with pending := rest })
    | [] => s.receive (s.now + timeout) false

/-- Writes bytes to the receiver. -/
def send (s : Session σ) (data : List UInt8) : Outcome σ Unit :=
  s.whenOpen fun s => s.put data

end Session
end GnssLink
