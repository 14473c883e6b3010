import GnssLink.Proofs.Session.Conduct
import GnssLink.Proofs.Stream.Reads
/-!
# GnssLink.Proofs.Session.Course

**What happens between two states of a session.** A `Session.Course` says how the link was used in
the meantime, which messages were taken from the stream and which of them were put into the queue.
The three are tied together: the stream took in what the link gave in these uses and nothing else
(`Demux.Hears`), and the queue is told by the messages put into it (`queued`).

A course has no faults. Parts of an operation that do not fail have courses, and courses of parts
make up the course of the whole (`Session.Course.trans`).
-/

namespace GnssLink

open GnssLink.Stream (Demux Message Turn)

/-! ### Streams -/

/-- The bytes of a read. -/
def Stream.Turn.read? : Turn → Option (List UInt8)
  | add data => some data
  | next => none

namespace Stream.Demux

theorem run_append (turns more : List Turn) (d : Demux) :
    run (turns ++ more) d
      = ((run turns d).1 ++ (run more (run turns d).2).1, (run more (run turns d).2).2) := by
  induction turns generalizing d with
  | nil => rfl
  | cons turn rest ih =>
    cases turn with
    | add data => exact ih (d.add data)
    | next =>
      rw [List.cons_append, run, run]
      split
      · exact ih d
      · next m d' hnext =>
        rw [ih d']
        rfl

/-- The stream takes in some reads in their order, and meanwhile it gives the messages `heard`. -/
def Hears (d : Demux) (reads : List (List UInt8)) (heard : List Message) (d' : Demux) : Prop :=
  ∃ turns : List Turn, turns.filterMap Turn.read? = reads ∧ run turns d = (heard, d')

namespace Hears

variable {d d₁ d₂ : Demux} {reads more : List (List UInt8)} {heard later : List Message}

theorem refl (d : Demux) : Hears d [] [] d := ⟨[], rfl, rfl⟩

theorem of_add (d : Demux) (data : List UInt8) : Hears d [data] [] (d.add data) :=
  ⟨[.add data], rfl, rfl⟩

theorem of_next? {m : Message} (h : d.next? = some (m, d₁)) : Hears d [] [m] d₁ := by
  refine ⟨[.next], rfl, ?_⟩
  rw [run, h]
  rfl

theorem trans (h : Hears d reads heard d₁) (hmore : Hears d₁ more later d₂) :
    Hears d (reads ++ more) (heard ++ later) d₂ := by
  obtain ⟨turns, rfl, hrun⟩ := h
  obtain ⟨turns', rfl, hrun'⟩ := hmore
  refine ⟨turns ++ turns', List.filterMap_append, ?_⟩
  rw [run_append, hrun, hrun']

end Hears
end Stream.Demux

/-! ### Queues -/

/-- A queue for so many messages after some more were put into it. There is always room for one, and
the oldest make room for the others. -/
def queued (limit : Nat) (queue messages : List Message) : List Message :=
  (queue ++ messages).drop (queue.length + messages.length - max queue.length (max 1 limit))

/-- A queue into which nothing is put gives nothing up, however long it is. -/
theorem queued_nil (limit : Nat) (queue : List Message) : queued limit queue [] = queue := by
  have hnone : queue.length + 0 - max queue.length (max 1 limit) = 0 := by omega
  rw [queued, List.length_nil, hnone, List.append_nil, List.drop_zero]

/-- Messages may be put in one by one or all at once: the same ones are left. -/
theorem queued_append (limit : Nat) (queue messages more : List Message) :
    queued limit (queued limit queue messages) more = queued limit queue (messages ++ more) := by
  have hdropped : queue.length + messages.length - max queue.length (max 1 limit)
      ≤ (queue ++ messages).length := by
    rw [List.length_append]
    exact Nat.sub_le _ _
  unfold queued
  rw [List.length_drop, ← List.append_assoc, ← List.drop_append_of_le_length hdropped,
    List.drop_drop, List.length_append, List.length_append]
  -- both sides drop from the front of the same list; only how much they drop is left to compare
  congr 1
  omega

/-- One message displaces the oldest if the queue is full. -/
theorem queued_singleton (limit : Nat) (queue : List Message) (m : Message) :
    queued limit queue [m]
      = if limit ≤ queue.length then queue.drop 1 ++ [m] else queue ++ [m] := by
  rw [queued, List.length_singleton]
  cases queue with
  | nil =>
    have hnone : 0 + 1 - max 0 (max 1 limit) = 0 := by omega
    rw [List.length_nil, hnone]
    exact (ite_self _).symm
  | cons first rest =>
    rw [List.length_cons]
    by_cases hfull : limit ≤ rest.length + 1
    · have hone : rest.length + 1 + 1 - max (rest.length + 1) (max 1 limit) = 1 := by omega
      rw [hone, if_pos hfull]
      rfl
    · have hnone : rest.length + 1 + 1 - max (rest.length + 1) (max 1 limit) = 0 := by omega
      rw [hnone, if_neg hfull]
      rfl

/-! ### Courses -/

/-- The bytes that the link gave in a use. -/
def Use.reading? : Use → Option (List UInt8)
  | read (.ok data) => some data
  | _ => none

/-- Reads of a link that does not fail. -/
def Use.reads (reads : List (List UInt8)) : List Use := reads.map fun data => .read (.ok data)

theorem Use.reads_append (reads more : List (List UInt8)) :
    Use.reads (reads ++ more) = Use.reads reads ++ Use.reads more := List.map_append

theorem Use.filterMap_reading?_reads (reads : List (List UInt8)) :
    (Use.reads reads).filterMap reading? = reads := by
  rw [Use.reads, List.filterMap_map]
  exact List.filterMap_some

/-- Writes of a link that does not fail. -/
def Use.writes (frames : List (List UInt8)) : List Use :=
  frames.map fun data => .write data (.ok ())

theorem Use.filterMap_reading?_writes (frames : List (List UInt8)) :
    (Use.writes frames).filterMap reading? = [] := by
  rw [Use.writes, List.filterMap_map]
  exact List.filterMap_eq_nil_iff.mpr fun _ _ => rfl

namespace Session

variable {σ : Type}

/-- Keeping a message is putting it into the queue. -/
theorem keep_eq (s : Session σ) (m : Message) :
    s.keep m = { s with pending := queued s.options.maxPending s.pending [m] } := by
  rw [queued_singleton, keep]
  split <;> rfl

/-- From one session to the other the link was used without a fault, the messages `heard` were taken
from the stream, and the messages `kept` were put into the queue. -/
structure Course (s : Session (Logged σ)) (uses : List Use) (heard kept : List Message)
    (s' : Session (Logged σ)) : Prop where
  log : s'.link.uses = s.link.uses ++ uses
  hears : s.demux.Hears (uses.filterMap Use.reading?) heard s'.demux
  queue : s'.pending = queued s.options.maxPending s.pending kept
  options : s'.options = s.options
  aborted : s'.aborted = s.aborted

namespace Course

variable {s s₁ s₂ : Session (Logged σ)} {uses more : List Use}
  {heard heard' kept kept' : List Message}

/-- What neither uses the link nor hears or keeps a message. -/
theorem of_eq (hlink : s₁.link = s.link) (hdemux : s₁.demux = s.demux)
    (hpending : s₁.pending = s.pending) (hoptions : s₁.options = s.options)
    (haborted : s₁.aborted = s.aborted) : Course s [] [] [] s₁ where
  log := by rw [hlink, List.append_nil]
  hears := hdemux ▸ .refl _
  queue := by rw [hpending, queued_nil]
  options := hoptions
  aborted := haborted

theorem refl (s : Session (Logged σ)) : Course s [] [] [] s := of_eq rfl rfl rfl rfl rfl

/-- Uses, messages heard and messages kept of two courses add up. -/
theorem trans (h : Course s uses heard kept s₁) (hmore : Course s₁ more heard' kept' s₂) :
    Course s (uses ++ more) (heard ++ heard') (kept ++ kept') s₂ where
  log := by rw [hmore.log, h.log, List.append_assoc]
  hears := by
    rw [List.filterMap_append]
    exact h.hears.trans hmore.hears
  queue := by rw [hmore.queue, h.queue, h.options, queued_append]
  options := hmore.options.trans h.options
  aborted := hmore.aborted.trans h.aborted

/-- Keeping needs no link. What is kept was heard before, so it is not heard again. -/
theorem keep (s : Session (Logged σ)) (m : Message) : Course s [] [] [m] (s.keep m) := by
  rw [keep_eq]
  exact ⟨(List.append_nil _).symm, .refl s.demux, rfl, rfl, rfl⟩

theorem of_next? {m : Message} {demux : Stream.Demux} (h : s.demux.next? = some (m, demux)) :
    Course s [] [m] [] { s with demux } where
  log := (List.append_nil _).symm
  hears := .of_next? h
  queue := (queued_nil _ _).symm
  options := rfl
  aborted := rfl

end Course

/-- A part of an operation that only made uses which were served met no fault. -/
theorem Conduct.ne_fault {α : Type} {s s₁ : Session (Logged σ)} {r : Except SessionError α}
    (h : Conduct s (r, s₁)) (hserved : ∀ use ∈ s₁.link.uses, use.fault? = none) (f : Fault) :
    r ≠ .error (.fault f) := by
  rintro rfl
  cases h with
  | error own _ _ => cases own
  | fault _ last failed _ =>
    have hnone := hserved _ (last ▸ List.mem_append_right _ (List.mem_singleton_self _))
    rw [failed] at hnone
    cases hnone

/-- An operation that consists of one exchange, in a session and with a log of its link. -/
theorem exists_exchange_logged {α : Type} {s : Session σ} {run : Session σ → Outcome σ α}
    {run' : Session (Logged σ) → Outcome (Logged σ) α} (hopen : s.phase.isOpen = true)
    (hrun : ∀ s, run (s.mapLink Logged.link) = (run' s).mapLink Logged.link) :
    ∃ r s₁ phase, run' { s.logged with phase := .busy } = (r, s₁)
      ∧ (s.logged.whenOpen fun s => s.whileBusy run') = (r, { s₁ with phase })
      ∧ (s.whenOpen fun s => s.whileBusy run) = (r, { s₁.mapLink Logged.link with phase }) := by
  have hmap : ((s.logged.mapLink Logged.link).whenOpen fun s => s.whileBusy run)
      = (s.logged.whenOpen fun s => s.whileBusy run').mapLink Logged.link := by
    refine whenOpen_mapLink ?_ s.logged
    exact whileBusy_mapLink hrun
  have hlogged : s.logged.phase.isOpen = true := hopen
  rcases hresult : run' { s.logged with phase := .busy } with ⟨r, s₁⟩
  obtain ⟨phase, hphase⟩ : ∃ phase,
      (s.logged.whenOpen fun s => s.whileBusy run') = (r, { s₁ with phase }) := by
    simp only [whenOpen, if_pos hlogged, whileBusy, hresult]
    by_cases hbusy : s₁.phase = .busy
    · exact ⟨.ready, by rw [if_pos hbusy]⟩
    · exact ⟨s₁.phase, by rw [if_neg hbusy]⟩
  rw [hphase] at hmap
  exact ⟨r, s₁, phase, rfl, hphase, hmap⟩

variable [Link σ]

/-- A read adds its bytes to the stream, and no message is taken from it yet. -/
theorem course_read {s : Session (Logged σ)} {data : List UInt8} {link : Logged σ}
    (hread : Link.read s.link = (.ok data, link)) :
    Course s (Use.reads [data]) [] [] { s with link, demux := s.demux.add data } where
  log := (Logged.eq_of_enter hread).2
  hears := .of_add s.demux data
  queue := (queued_nil _ _).symm
  options := rfl
  aborted := rfl

/-- What is received is heard, after some reads. -/
theorem course_receive {s s₁ : Session (Logged σ)} {deadline : Nat} {attempted : Bool}
    {found : Option Message} (h : s.receive deadline attempted = (.ok found, s₁)) :
    ∃ reads, Course s (Use.reads reads) found.toList [] s₁ := by
  -- the reads come off the end of the induction, so each is put before those that follow it
  fun_induction receive s deadline attempted with
  | case1 s attempted m demux hm =>
    cases h
    exact ⟨[], .of_next? hm⟩
  | case2 =>
    cases h
    exact ⟨[], .refl _⟩
  | case3 => cases h
  | case4 => cases h
  | case5 s attempted hm hwait haborts data link hread _ _ ih =>
    obtain ⟨reads, hcourse⟩ := ih h
    exact ⟨data :: reads, (course_read hread).trans hcourse⟩

/-- Only the link makes the session of a user who did not give up fail to receive. -/
theorem fault_of_receive {s s₁ : Session σ} {deadline : Nat} {attempted : Bool} {e : SessionError}
    (hactive : s.aborted = false) (h : s.receive deadline attempted = (.error e, s₁)) :
    ∃ f, e = .fault f := by
  fun_induction receive s deadline attempted with
  | case1 => cases h
  | case2 => cases h
  | case3 s _ _ _ haborts =>
    rw [hactive] at haborts
    cases haborts
  | case4 =>
    cases h
    exact ⟨_, rfl⟩
  | case5 s attempted hm hwait haborts data link hread _ _ ih => exact ih hactive h

/-- A write that succeeds is a use of the link and nothing else. -/
theorem course_put {s s₁ : Session (Logged σ)} {data : List UInt8}
    (h : s.put data = (.ok (), s₁)) : Course s (Use.writes [data]) [] [] s₁ := by
  unfold put at h
  split at h
  · next hwrite =>
    cases h
    exact ⟨(Logged.eq_of_enter hwrite).2, .refl s.demux, (queued_nil _ _).symm, rfl, rfl⟩
  · cases h

theorem fault_of_put {s s₁ : Session σ} {data : List UInt8} {e : SessionError}
    (h : s.put data = (.error e, s₁)) : ∃ f, e = .fault f := by
  unfold put at h
  split at h
  · cases h
  · cases h
    exact ⟨_, rfl⟩

end Session
end GnssLink
