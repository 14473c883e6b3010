import GnssLink.Proofs.Session.ScriptedReceiver
/-!
# GnssLink.Proofs.Session.LateAnswers

**What configuration writes answer, one after the other** (`Session.results_of_writes`). All
messages of a write are sent before an acknowledgement is read, and the first rejection ends the
wait. So a rejected write leaves the acknowledgements of its later messages unread, and the next
write reads those first. A write gets the answer that its own messages deserve exactly as long as
that makes no difference (`Aligned`), as where no write but the last one is rejected before its last
message (`aligned_of_rejected_last`).
-/

namespace GnssLink

open GnssLink.Config (Item Layers WriteError WriteLimits WriteMessage)

/-- A call that writes to the configuration. -/
inductive ConfigWrite where
  | set (items : List Item) (layers : Layers)
  | send (batch : List WriteMessage)

namespace ConfigWrite

/-- The messages of the write. -/
def messages (limits : WriteLimits) : ConfigWrite → Except WriteError (List WriteMessage)
  | set items layers => limits.split items layers
  | send batch => .ok batch

/-- The frames that are written. -/
def frames (limits : WriteLimits) (w : ConfigWrite) : List (List UInt8) :=
  match w.messages limits with
  | .ok batch => batch.map WriteMessage.frame
  | .error _ => []

/-- Makes the call. -/
def perform {σ : Type} [Link σ] (s : Session σ) : ConfigWrite → Outcome σ Unit
  | set items layers => s.setConfig items layers
  | send batch => s.sendBatch batch

end ConfigWrite

/-- A write, and whether the receiver accepts each of its messages. -/
structure AnsweredWrite where
  write : ConfigWrite
  own : List Bool

/-- What a write answers to some acknowledgements, one for each of its messages. -/
def ruling (acks : List Bool) : Except SessionError Unit :=
  if false ∈ acks then .error (.configRejected (acks.idxOf false + 1) acks.length) else .ok ()

/-- The acknowledgements that a write of `n` messages leaves of those that can be read. -/
def unread (n : Nat) (owed : List Bool) : List Bool := owed.drop (min n (owed.idxOf false + 1))

namespace AnsweredWrite

/-- What the write answers if the acknowledgements it reads are `acks`. -/
def result (limits : WriteLimits) (c : AnsweredWrite) (acks : List Bool) :
    Except SessionError Unit :=
  match c.write.messages limits with
  | .error e => .error (.write e)
  | .ok _ => ruling acks

/-- What the acknowledgements of its own messages make of the write. -/
def deserved (limits : WriteLimits) (c : AnsweredWrite) : Except SessionError Unit :=
  c.result limits c.own

/-- Every message of the write is answered. -/
def IsComplete (limits : WriteLimits) (c : AnsweredWrite) : Prop :=
  c.own.length = (c.write.frames limits).length

instance (limits : WriteLimits) (c : AnsweredWrite) : Decidable (c.IsComplete limits) :=
  inferInstanceAs (Decidable (c.own.length = (c.write.frames limits).length))

/-- The frames of some writes with their answers. -/
def plan (limits : WriteLimits) (calls : List AnsweredWrite) : Plan :=
  calls.flatMap fun c => (c.write.frames limits).zip c.own

/-- What some writes answer where the acknowledgements `late` were left before. -/
def results (limits : WriteLimits) :
    List Bool → List AnsweredWrite → List (Except SessionError Unit)
  | _, [] => []
  | late, c :: rest =>
    c.result limits ((late ++ c.own).take c.own.length)
      :: results limits (unread c.own.length (late ++ c.own)) rest

end AnsweredWrite

/-- What is left of earlier acknowledgements makes no difference: each write finds its first
rejection where it is among its own. -/
def Aligned : List Bool → List (List Bool) → Prop
  | _, [] => True
  | late, own :: rest =>
    ((late ++ own).take own.length).idxOf false = own.idxOf false
      ∧ Aligned (unread own.length (late ++ own)) rest

/-! ### Rulings -/

/-- Two answers to the same number of messages come to the same exactly if their first rejections
are in the same place. -/
theorem ruling_eq_iff {acks own : List Bool} (h : acks.length = own.length) :
    ruling acks = ruling own ↔ acks.idxOf false = own.idxOf false := by
  unfold ruling
  by_cases hacks : false ∈ acks <;> by_cases hown : false ∈ own
  · rw [if_pos hacks, if_pos hown, h]
    simp
  · have hlt := List.idxOf_lt_length_iff.mpr hacks
    have heq := List.idxOf_eq_length hown
    rw [if_pos hacks, if_neg hown]
    exact ⟨nofun, fun hsame => by omega⟩
  · have heq := List.idxOf_eq_length hacks
    have hlt := List.idxOf_lt_length_iff.mpr hown
    rw [if_neg hacks, if_pos hown]
    exact ⟨nofun, fun hsame => by omega⟩
  · rw [if_neg hacks, if_neg hown, List.idxOf_eq_length hacks, List.idxOf_eq_length hown]
    exact ⟨fun _ => h, fun _ => rfl⟩

/-- An acceptance is read and makes room for the next acknowledgement. -/
theorem unread_cons_true (n : Nat) (owed : List Bool) :
    unread (n + 1) (true :: owed) = unread n owed := by
  have hnext : (true :: owed).idxOf false = owed.idxOf false + 1 := List.idxOf_cons
  rw [unread, unread, hnext, Nat.add_min_add_right, List.drop_succ_cons]

/-- Whatever was read before, a wait goes on to the first rejection or to its end, and leaves the
rest. -/
theorem charge_eq {expected acked : Nat} {owed : List Bool} (hle : acked ≤ expected)
    (henough : expected ≤ acked + owed.length) :
    Session.charge expected acked owed
      = (if false ∈ owed.take (expected - acked) then
          .error (.configRejected (acked + owed.idxOf false + 1) expected)
        else .ok (), unread (expected - acked) owed) := by
  -- by what is owed: an acceptance counts towards the ones expected, a rejection ends the wait
  induction owed generalizing acked with
  | nil =>
    have hsame : expected = acked := by
      rw [List.length_nil] at henough
      omega
    rw [Session.charge_of_le (Nat.le_of_eq hsame)]
    simp [unread]
  | cons accepted rest ih =>
    rw [Session.charge]
    split
    · next hdone =>
      have hnone : expected - acked = 0 := by omega
      rw [hnone]
      simp [unread]
    · next hmore =>
      obtain ⟨n, hn⟩ : ∃ n, expected - acked = n + 1 := ⟨expected - acked - 1, by omega⟩
      cases accepted with
      | false =>
        rw [if_neg Bool.false_ne_true, hn]
        simp [unread]
      | true =>
        have hrest : expected - (acked + 1) = n := by omega
        rw [List.length_cons] at henough
        have hnext : (true :: rest).idxOf false = rest.idxOf false + 1 := List.idxOf_cons
        have hindex : acked + (true :: rest).idxOf false = acked + 1 + rest.idxOf false := by
          rw [hnext, Nat.add_assoc, Nat.add_comm 1]
        rw [if_pos rfl, ih (by omega) (by omega), hrest, hn, hindex, unread_cons_true]
        simp

/-- A write answers what the first acknowledgements make of it, and leaves those after the first
rejection among them. -/
theorem charge_zero {n : Nat} {owed : List Bool} (h : n ≤ owed.length) :
    Session.charge n 0 owed = (ruling (owed.take n), unread n owed) := by
  rw [charge_eq (Nat.zero_le n) (by omega), Nat.sub_zero]
  unfold ruling
  split
  · next hmem =>
    have hindex : owed.idxOf false = (owed.take n).idxOf false := by
      rw [← List.take_append_drop n owed, List.idxOf_append, List.take_append_drop, if_pos hmem]
    rw [Nat.zero_add, hindex, List.length_take, Nat.min_eq_left h]
  · rfl

namespace Session

variable {σ : Type} [Link σ] {timeout : Nat} {r : Receiver σ timeout} {plan : Plan}
  {late own : List Bool} {limit : Nat} {past : List UInt8} {coming : List Coming} {s : Session σ}

/-! ### One write -/

/-- A wait for as many acknowledgements as the write has messages takes them from the front of what
is owed, the late ones first. -/
theorem awaitAcks_of_awaits_all
    (h : Awaits r plan (late ++ own) (s.now + timeout) past coming s) :
    ∃ past' coming' s', awaitAcks own.length 0 (s.now + s.options.ackTimeout) s
          = (ruling ((late ++ own).take own.length), s')
        ∧ Awaits r plan (unread own.length (late ++ own)) (s.now + timeout) past' coming' s'
        ∧ Later s s' := by
  have henough : own.length ≤ (late ++ own).length := by
    rw [List.length_append]
    omega
  rw [h.patience]
  obtain ⟨past', coming', s', hwait, hawaits, hlater⟩ :=
    awaitAcks_of_awaits h (Nat.le_add_left_of_le henough) (Nat.le_refl _)
      (Nat.lt_add_of_pos_right r.timeout_pos)
  rw [charge_zero henough] at hwait hawaits
  exact ⟨past', coming', s', hwait, hawaits, hlater⟩

/-- A write answers what the acknowledgements at the front of the queue make of it. -/
theorem sendBatch_of_awaits {batch : List WriteMessage} (hopen : s.phase.isOpen = true)
    (hown : own.length = batch.length)
    (h : Awaits r ((batch.map WriteMessage.frame).zip own ++ plan) late limit past coming s) :
    ∃ limit' past' coming' s',
      s.sendBatch batch = (ruling ((late ++ own).take own.length), s')
        ∧ Awaits r plan (unread own.length (late ++ own)) limit' past' coming' s'
        ∧ s'.options = s.options ∧ s'.phase.isOpen = true := by
  -- the frames are all written first, so their acknowledgements queue behind the late ones
  obtain ⟨coming₁, s₁, hput, hawaits₁, hlater₁⟩ :=
    putAll_of_awaits (hown.trans (List.length_map _).symm) (h.inPhase .busy)
  obtain ⟨past₂, coming₂, s₂, hwait, hawaits₂, hlater₂⟩ := awaitAcks_of_awaits_all hawaits₁
  have hphase : s₂.phase = .busy := hlater₂.phase.trans hlater₁.phase
  have hbatch : applyBatch batch { s with phase := .busy }
      = (ruling ((late ++ own).take own.length), s₂) := by
    rw [applyBatch, hput, Outcome.andThen_ok, ← hown, hwait]
  refine ⟨_, past₂, coming₂, { s₂ with phase := .ready }, ?_, hawaits₂.inPhase .ready,
    hlater₂.options.trans hlater₁.options, rfl⟩
  rw [sendBatch, whenOpen, if_pos hopen, whileBusy, hbatch]
  simp only [hphase, ↓reduceIte]

/-- So does a write of items; one that cannot be split is refused without a frame. -/
theorem perform_of_awaits {c : AnsweredWrite} (hopen : s.phase.isOpen = true)
    (hcomplete : c.IsComplete s.options.write)
    (h : Awaits r ((c.write.frames s.options.write).zip c.own ++ plan) late limit past coming s) :
    ∃ limit' past' coming' s',
      c.write.perform s
          = (c.result s.options.write ((late ++ c.own).take c.own.length), s')
        ∧ Awaits r plan (unread c.own.length (late ++ c.own)) limit' past' coming' s'
        ∧ s'.options = s.options ∧ s'.phase.isOpen = true := by
  have hperform : c.write.perform s
      = match c.write.messages s.options.write with
        | .error e => (.error (.write e), s)
        | .ok batch => s.sendBatch batch := by
    cases c.write <;> rfl
  unfold AnsweredWrite.IsComplete ConfigWrite.frames at hcomplete
  unfold ConfigWrite.frames at h
  unfold AnsweredWrite.result
  rw [hperform]
  cases hmessages : c.write.messages s.options.write with
  | error e =>
    rw [hmessages] at hcomplete h
    have hnil : c.own = [] := List.length_eq_zero_iff.mp hcomplete
    rw [hnil] at h ⊢
    refine ⟨limit, past, coming, s, rfl, ?_, rfl, hopen⟩
    simpa [unread] using h
  | ok batch =>
    rw [hmessages] at hcomplete h
    rw [List.length_map] at hcomplete
    exact sendBatch_of_awaits hopen hcomplete h

/-! ### Several writes -/

/-- Makes one call after the other. -/
def performWrites : List ConfigWrite → Session σ → List (Except SessionError Unit) × Session σ
  | [], s => ([], s)
  | w :: rest, s =>
    ((w.perform s).1 :: (performWrites rest (w.perform s).2).1,
      (performWrites rest (w.perform s).2).2)

/-- **Each of several writes leaves to the next what it did not read.** -/
theorem performWrites_of_awaits {calls : List AnsweredWrite} {limits : WriteLimits}
    (hlimits : s.options.write = limits) (hopen : s.phase.isOpen = true)
    (hcomplete : ∀ c ∈ calls, c.IsComplete limits)
    (h : Awaits r (AnsweredWrite.plan limits calls) late limit past coming s) :
    (performWrites (calls.map AnsweredWrite.write) s).1
      = AnsweredWrite.results limits late calls := by
  induction calls generalizing late limit past coming s with
  | nil => rfl
  | cons c rest ih =>
    subst hlimits
    obtain ⟨hfirst, hrest⟩ := List.forall_mem_cons.mp hcomplete
    -- the session after the write awaits what it left, in the place of what was late before it
    obtain ⟨limit', past', coming', s', hperform, hawaits, hoptions, hopen'⟩ :=
      perform_of_awaits hopen hfirst h
    rw [List.map_cons, performWrites, AnsweredWrite.results, hperform,
      ih (congrArg Options.write hoptions) hopen' hrest hawaits]

end Session

/-! ### What the writes deserve -/

/-- A write gets what it deserves exactly if the first rejection that it reads is in the place of
its own. -/
theorem result_eq_deserved_iff {limits : WriteLimits} {c : AnsweredWrite} {acks : List Bool}
    (hcomplete : c.IsComplete limits) (hlength : acks.length = c.own.length) :
    c.result limits acks = c.deserved limits ↔ acks.idxOf false = c.own.idxOf false := by
  unfold AnsweredWrite.deserved AnsweredWrite.result
  unfold AnsweredWrite.IsComplete ConfigWrite.frames at hcomplete
  cases hmessages : c.write.messages limits with
  | error e =>
    -- nothing is sent, so nothing is acknowledged
    rw [hmessages] at hcomplete
    have hown : c.own = [] := List.length_eq_zero_iff.mp hcomplete
    rw [hown, List.length_nil] at hlength
    rw [hown, List.length_eq_zero_iff.mp hlength]
    exact ⟨fun _ => rfl, fun _ => rfl⟩
  | ok batch => exact ruling_eq_iff hlength

/-- All writes do exactly if this holds of each with what the ones before it left. -/
theorem results_eq_deserved_iff {limits : WriteLimits} {late : List Bool}
    {calls : List AnsweredWrite} (hcomplete : ∀ c ∈ calls, c.IsComplete limits) :
    AnsweredWrite.results limits late calls = calls.map (AnsweredWrite.deserved limits)
      ↔ Aligned late (calls.map AnsweredWrite.own) := by
  induction calls generalizing late with
  | nil => exact ⟨fun _ => trivial, fun _ => rfl⟩
  | cons c rest ih =>
    obtain ⟨hfirst, hrest⟩ := List.forall_mem_cons.mp hcomplete
    have hlength : ((late ++ c.own).take c.own.length).length = c.own.length := by
      rw [List.length_take, List.length_append]
      omega
    rw [AnsweredWrite.results, List.map_cons, List.map_cons, Aligned, List.cons.injEq,
      result_eq_deserved_iff hfirst hlength, ih hrest]

/-- A write that is rejected at most at its last message reads all of its acknowledgements. -/
theorem unread_of_rejected_last {own : List Bool} (h : false ∉ own.dropLast) :
    unread own.length own = [] := by
  rcases List.eq_nil_or_concat own with rfl | ⟨init, accepted, rfl⟩
  · rfl
  · rw [List.concat_eq_append, List.dropLast_concat] at h
    rw [unread, List.drop_eq_nil_iff, List.concat_eq_append, List.idxOf_append, if_neg h,
      List.length_append, List.length_singleton]
    omega

/-- Where no write but the last one is rejected before its last message, nothing is left. -/
theorem aligned_of_rejected_last {owns : List (List Bool)}
    (h : ∀ own ∈ owns.dropLast, false ∉ own.dropLast) : Aligned [] owns := by
  induction owns with
  | nil => trivial
  | cons own rest ih =>
    refine ⟨by rw [List.nil_append, List.take_length], ?_⟩
    cases rest with
    | nil => trivial
    | cons next rest =>
      rw [List.dropLast_cons_cons] at h
      obtain ⟨hown, hrest⟩ := List.forall_mem_cons.mp h
      show Aligned (unread own.length own) (next :: rest)
      rw [unread_of_rejected_last hown]
      exact ih hrest

namespace Session

variable {σ : Type} [Link σ] {timeout : Nat}

/-- Where no acknowledgement is on its way, none is owed. -/
theorem awaits_of_serves {r : Receiver σ timeout} {plan : Plan} {coming : List Coming}
    {s : Session σ} (hactive : s.aborted = false) (hpatience : s.options.ackTimeout = timeout)
    (hserves : r.Serves plan s.demux.buffer coming s.link)
    (hquiet : acks (s.demux.buffer ++ bytesOf coming) = []) :
    Awaits r plan [] s.now s.demux.buffer coming s := by
  refine ⟨hserves, ⟨[], fun y => rfl⟩, hquiet, ?_, hpatience, Nat.le_add_right _ _, hactive⟩
  intro x next y hsplit hmissing
  rw [hsplit, bytesOf_append, ← List.append_assoc, acks_append] at hquiet
  exact absurd (List.append_eq_nil_iff.mp hquiet).1 hmissing

/-- **What configuration writes answer**: each what the acknowledgements it reads make of it, which
is what its own messages deserve exactly as long as what was left of earlier ones makes no
difference. -/
theorem results_of_writes {r : Receiver σ timeout} {calls : List AnsweredWrite}
    {coming : List Coming} {s : Session σ} (hopen : s.phase.isOpen = true)
    (hactive : s.aborted = false) (hpatience : s.options.ackTimeout = timeout)
    (hserves : r.Serves (AnsweredWrite.plan s.options.write calls) s.demux.buffer coming s.link)
    (hquiet : acks (s.demux.buffer ++ bytesOf coming) = [])
    (hcomplete : ∀ c ∈ calls, c.IsComplete s.options.write) :
    (performWrites (calls.map AnsweredWrite.write) s).1
        = AnsweredWrite.results s.options.write [] calls
      ∧ ((performWrites (calls.map AnsweredWrite.write) s).1
            = calls.map (AnsweredWrite.deserved s.options.write)
          ↔ Aligned [] (calls.map AnsweredWrite.own)) := by
  have hawaits := awaits_of_serves hactive hpatience hserves hquiet
  have hresults := performWrites_of_awaits rfl hopen hcomplete hawaits
  exact ⟨hresults, hresults ▸ results_eq_deserved_iff hcomplete⟩

/-! ### A rejection that is passed over

The receiver rejects the first of three messages and accepts the other two. The next write, of one
message, is rejected too. It reads the first of the two acknowledgements that were left and is taken
for accepted. -/

/-- A configuration message without items. -/
def emptyWrite : WriteMessage := ⟨Frame.encode ⟨.cfgValset, [0x01, 0x01, 0x00, 0x00]⟩, .none, 0, ""⟩

/-- Two writes, the first of which leaves acknowledgements. -/
def twoWrites : List AnsweredWrite :=
  [⟨.send [emptyWrite, emptyWrite, emptyWrite], [false, true, true]⟩,
    ⟨.send [emptyWrite], [false]⟩]

/-- A session whose receiver answers the two writes. -/
def ofTwoWrites : Session Script where
  name := ""
  options := { detect := false }
  phase := .ready
  link :=
    { rules := [⟨.cfgValset, (AnsweredWrite.plan {} twoWrites).map fun p =>
        [⟨0, .data (Script.ackBytes p.2)⟩]⟩] }

theorem serves_ofTwoWrites :
    (Script.receiver 0 (millis 2500) (by decide)).Serves (AnsweredWrite.plan {} twoWrites) [] []
      ofTwoWrites.link :=
  ⟨[], rfl, by simp, rfl, by simp, rfl, by decide, rfl, rfl⟩

theorem isComplete_twoWrites : ∀ c ∈ twoWrites, c.IsComplete ofTwoWrites.options.write := by
  decide

theorem results_ofTwoWrites :
    (performWrites (twoWrites.map AnsweredWrite.write) ofTwoWrites).1
      = [.error (.configRejected 1 3), .ok ()] := by
  have h : _ ∧ ((performWrites (twoWrites.map AnsweredWrite.write) ofTwoWrites).1 = _ ↔ _) :=
    results_of_writes rfl rfl rfl serves_ofTwoWrites acks_nil isComplete_twoWrites
  exact h.1

/-- The second write is rejected and answers that it was accepted. -/
theorem exists_results_ne_deserved : ∃ (timeout : Nat) (r : Receiver Script timeout)
    (calls : List AnsweredWrite) (s : Session Script),
    s.phase.isOpen = true ∧ s.aborted = false ∧ s.options.ackTimeout = timeout
      ∧ r.Serves (AnsweredWrite.plan s.options.write calls) s.demux.buffer [] s.link
      ∧ acks s.demux.buffer = [] ∧ (∀ c ∈ calls, c.IsComplete s.options.write)
      ∧ (performWrites (calls.map AnsweredWrite.write) s).1
        ≠ calls.map (AnsweredWrite.deserved s.options.write) := by
  refine ⟨millis 2500, Script.receiver 0 (millis 2500) (by decide), twoWrites, ofTwoWrites, rfl,
    rfl, rfl, serves_ofTwoWrites, acks_nil, isComplete_twoWrites, ?_⟩
  have hawaits := awaits_of_serves (s := ofTwoWrites) rfl rfl serves_ofTwoWrites acks_nil
  rw [performWrites_of_awaits rfl rfl isComplete_twoWrites hawaits]
  intro hsame
  cases hsame

end Session
end GnssLink
