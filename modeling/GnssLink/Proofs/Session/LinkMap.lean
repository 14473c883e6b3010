import GnssLink.Proofs.Session.Calls
import GnssLink.Proofs.Session.Rounds
/-!
# GnssLink.Proofs.Session.LinkMap

**A session cannot tell links apart that answer alike.** A map from links to links may forget some
of what a link knows. If none of the answers depends on that (`Link.IsHom`), it does not matter
whether the link is mapped before the session is used or after (`Call.perform_mapLink`).
-/

namespace GnssLink

open GnssLink.Config (Item Layer Layers WriteMessage)

variable {σ τ : Type}

/-- A map under which links answer alike. -/
structure Link.IsHom [Link σ] [Link τ] (f : σ → τ) : Prop where
  now : ∀ l, Link.now (f l) = Link.now l
  baudRate : ∀ l, Link.baudRate (f l) = Link.baudRate l
  read : ∀ l, Link.read (f l) = (Link.read l).map id f
  write : ∀ data l, Link.write data (f l) = (Link.write data l).map id f
  setBaudRate : ∀ baud l, Link.setBaudRate baud (f l) = (Link.setBaudRate baud l).map id f
  clearInput : ∀ l, Link.clearInput (f l) = (Link.clearInput l).map id f

/-- The session with its link mapped. -/
def Session.mapLink (f : σ → τ) (s : Session σ) : Session τ := { s with link := f s.link }

/-- The same result, and the session after it with its link mapped. -/
def Outcome.mapLink {α : Type} (f : σ → τ) (outcome : Outcome σ α) : Outcome τ α :=
  (outcome.1, outcome.2.mapLink f)

/-- Two steps in sequence commute with the mapping if the second does; the first is mapped already.
Every operation made of steps is taken apart with this. -/
theorem Outcome.andThen_mapLink {α β : Type} {f : σ → τ} {outcome : Outcome σ α}
    {next : α → Session σ → Outcome σ β} {next' : α → Session τ → Outcome τ β}
    (hnext : ∀ a s, next' a (s.mapLink f) = (next a s).mapLink f) :
    (outcome.mapLink f).andThen next' = (outcome.andThen next).mapLink f := by
  rcases outcome with ⟨e | a, s⟩
  · rfl
  · exact hnext a s

namespace Session

@[simp] theorem link_mapLink (f : σ → τ) (s : Session σ) : (s.mapLink f).link = f s.link := rfl

@[simp] theorem options_mapLink (f : σ → τ) (s : Session σ) :
    (s.mapLink f).options = s.options := rfl

@[simp] theorem demux_mapLink (f : σ → τ) (s : Session σ) : (s.mapLink f).demux = s.demux := rfl

@[simp] theorem pending_mapLink (f : σ → τ) (s : Session σ) :
    (s.mapLink f).pending = s.pending := rfl

@[simp] theorem phase_mapLink (f : σ → τ) (s : Session σ) : (s.mapLink f).phase = s.phase := rfl

@[simp] theorem aborted_mapLink (f : σ → τ) (s : Session σ) :
    (s.mapLink f).aborted = s.aborted := rfl

/-- The queue is not part of the link, so what is kept in it does not depend on the mapping. -/
theorem keep_mapLink (f : σ → τ) (s : Session σ) (m : Stream.Message) :
    (s.mapLink f).keep m = (s.keep m).mapLink f := by
  unfold keep
  rw [options_mapLink, pending_mapLink]
  split <;> rfl

variable {f : σ → τ} {α : Type}

/-- Whether the session is open is not for the link to say. -/
theorem whenOpen_mapLink {run : Session σ → Outcome σ α} {run' : Session τ → Outcome τ α}
    (hrun : ∀ s, run' (s.mapLink f) = (run s).mapLink f) (s : Session σ) :
    (s.mapLink f).whenOpen run' = (s.whenOpen run).mapLink f := by
  unfold whenOpen
  rw [phase_mapLink]
  split
  · exact hrun s
  · rfl

/-- The phase is set and restored on the same conditions on both sides. -/
theorem whileBusy_mapLink {run : Session σ → Outcome σ α} {run' : Session τ → Outcome τ α}
    (hrun : ∀ s, run' (s.mapLink f) = (run s).mapLink f) (s : Session σ) :
    (s.mapLink f).whileBusy run' = (s.whileBusy run).mapLink f := by
  -- setting the phase and mapping the link touch different fields, so they commute by definition
  have h : run' { s.mapLink f with phase := .busy } = (run { s with phase := .busy }).mapLink f :=
    hrun { s with phase := .busy }
  unfold whileBusy
  rw [h]
  rcases run { s with phase := .busy } with ⟨r, s₁⟩
  show (r, if s₁.phase = .busy then _ else _) = _
  by_cases hbusy : s₁.phase = .busy
  · simp only [if_pos hbusy]
    rfl
  · simp only [if_neg hbusy]
    rfl

variable [Link σ] [Link τ] (hf : Link.IsHom f)

include hf

theorem now_mapLink (s : Session σ) : (s.mapLink f).now = s.now := hf.now s.link

theorem baudRate_mapLink (s : Session σ) : (s.mapLink f).baudRate = s.baudRate := by
  unfold baudRate
  rw [phase_mapLink, link_mapLink, hf.baudRate]

theorem put_mapLink (s : Session σ) (data : List UInt8) :
    (s.mapLink f).put data = (s.put data).mapLink f := by
  unfold put
  rw [link_mapLink, hf.write]
  rcases Link.write data s.link with ⟨e | _, link⟩ <;> rfl

theorem putAll_mapLink (frames : List (List UInt8)) (s : Session σ) :
    putAll frames (s.mapLink f) = (putAll frames s).mapLink f := by
  induction frames generalizing s with
  | nil => rfl
  | cons data rest ih =>
    unfold putAll
    rw [put_mapLink hf]
    exact Outcome.andThen_mapLink fun _ s => ih s

/-- Both sessions read the same bytes at the same times, so they give up, fail and find a message
together. -/
theorem receive_mapLink (s : Session σ) (deadline : Nat) (attempted : Bool) :
    (s.mapLink f).receive deadline attempted = (s.receive deadline attempted).mapLink f := by
  -- along the reads of the session before its link is mapped; the other reads the same each time
  fun_induction receive s deadline attempted with
  | case1 s attempted m demux hm =>
    rw [receive_eq, demux_mapLink, hm]
    rfl
  | case2 s attempted hm hdone =>
    rw [receive_eq, demux_mapLink, hm, now_mapLink hf]
    exact if_pos hdone
  | case3 s attempted hm hwait haborts =>
    rw [receive_eq, demux_mapLink, hm, now_mapLink hf, aborted_mapLink]
    dsimp only
    rw [if_neg hwait, if_pos haborts]
    rfl
  | case4 s attempted hm hwait haborts e link hread =>
    rw [receive_eq, demux_mapLink, hm, now_mapLink hf, aborted_mapLink, link_mapLink, hf.read,
      hread]
    dsimp only
    rw [if_neg hwait, if_neg haborts]
    rfl
  | case5 s attempted hm hwait haborts data link hread _ _ ih =>
    rw [receive_eq, demux_mapLink, hm, now_mapLink hf, aborted_mapLink, link_mapLink, hf.read,
      hread]
    dsimp only
    rw [if_neg hwait, if_neg haborts]
    exact ih

/-! ### Polls -/

/-- The same messages come in, so the same one is the answer and the same ones are kept before it.
-/
theorem awaitAnswer_mapLink (poll : Poll) (deadline : Nat) (s : Session σ) :
    awaitAnswer poll deadline (s.mapLink f) = (awaitAnswer poll deadline s).mapLink f := by
  fun_induction awaitAnswer poll deadline s with
  | case1 s hlate =>
    rw [awaitAnswer_eq, now_mapLink hf, if_pos hlate]
    rfl
  | case2 s htime e s₁ hr =>
    rw [awaitAnswer_eq, now_mapLink hf, if_neg htime, receive_mapLink hf, hr]
    rfl
  | case3 s htime s₁ hr =>
    rw [awaitAnswer_eq, now_mapLink hf, if_neg htime, receive_mapLink hf, hr]
    rfl
  | case4 s htime m s₁ hr hclass =>
    rw [awaitAnswer_eq, now_mapLink hf, if_neg htime, receive_mapLink hf, hr]
    simp only [Outcome.mapLink, hclass]
  | case5 s htime m s₁ hr hclass =>
    rw [awaitAnswer_eq, now_mapLink hf, if_neg htime, receive_mapLink hf, hr]
    simp only [Outcome.mapLink, hclass]
  | case6 s htime m s₁ hr hclass _ ih =>
    rw [awaitAnswer_eq, now_mapLink hf, if_neg htime, receive_mapLink hf, hr, ← ih]
    simp only [Outcome.mapLink, hclass, keep_mapLink]

theorem putPoll_mapLink (poll : Poll) (s : Session σ) :
    putPoll poll (s.mapLink f) = (putPoll poll s).mapLink f := by
  unfold putPoll
  split
  · rfl
  · exact put_mapLink hf s poll.frame

/-- Both sessions use up their attempts together. -/
theorem tryPoll_mapLink (poll : Poll) (n : Nat) (s : Session σ) :
    tryPoll poll n (s.mapLink f) = (tryPoll poll n s).mapLink f := by
  induction n generalizing s with
  | zero => rfl
  | succ n ih =>
    unfold tryPoll
    rw [putPoll_mapLink hf]
    refine Outcome.andThen_mapLink ?_
    intro _ s₁
    rw [now_mapLink hf, awaitAnswer_mapLink hf]
    refine Outcome.andThen_mapLink ?_
    intro answer s₂
    cases answer with
    | none => exact ih s₂
    | some answer => rfl

theorem exchange_mapLink (poll : Poll) (s : Session σ) :
    exchange poll (s.mapLink f) = (exchange poll s).mapLink f := by
  unfold exchange
  rw [tryPoll_mapLink hf]
  refine Outcome.andThen_mapLink ?_
  intro answer s₁
  cases answer <;> rfl

/-! ### Configuration -/

/-- The same acknowledgements are counted, each with the same deadline for the next. -/
theorem awaitAcks_mapLink (expected acked deadline : Nat) (s : Session σ) :
    awaitAcks expected acked deadline (s.mapLink f)
      = (awaitAcks expected acked deadline s).mapLink f := by
  -- the cases are those of the unmapped session; the mapped one is shown to decide alike in each
  fun_induction awaitAcks expected acked deadline s with
  | case1 acked deadline s hdone =>
    rw [awaitAcks_eq, if_pos hdone]
    rfl
  | case2 acked deadline s hmore hlate =>
    rw [awaitAcks_eq, if_neg hmore, now_mapLink hf, if_pos hlate]
    rfl
  | case3 acked deadline s hmore htime e s₁ hr =>
    rw [awaitAcks_eq, if_neg hmore, now_mapLink hf, if_neg htime, receive_mapLink hf, hr]
    rfl
  | case4 acked deadline s hmore htime s₁ hr =>
    rw [awaitAcks_eq, if_neg hmore, now_mapLink hf, if_neg htime, receive_mapLink hf, hr]
    rfl
  | case5 acked deadline s hmore htime m s₁ hr _ hack ih =>
    rw [awaitAcks_eq, if_neg hmore, now_mapLink hf, if_neg htime, receive_mapLink hf, hr, ← ih]
    simp only [Outcome.mapLink, if_pos hack, now_mapLink hf]
    rfl
  | case6 acked deadline s hmore htime m s₁ hr _ hack hnak =>
    rw [awaitAcks_eq, if_neg hmore, now_mapLink hf, if_neg htime, receive_mapLink hf, hr]
    simp only [Outcome.mapLink, if_neg hack, if_pos hnak]
  | case7 acked deadline s hmore htime m s₁ hr _ hack hnak ih =>
    rw [awaitAcks_eq, if_neg hmore, now_mapLink hf, if_neg htime, receive_mapLink hf, hr, ← ih]
    simp only [Outcome.mapLink, if_neg hack, if_neg hnak, keep_mapLink]

theorem applyBatch_mapLink (batch : List WriteMessage) (s : Session σ) :
    applyBatch batch (s.mapLink f) = (applyBatch batch s).mapLink f := by
  unfold applyBatch
  rw [putAll_mapLink hf]
  refine Outcome.andThen_mapLink ?_
  intro _ s₁
  rw [now_mapLink hf]
  exact awaitAcks_mapLink hf batch.length 0 _ s₁

/-- The pages and their items are the same, and so is the one that ends the reading. -/
theorem readPages_mapLink (layer : Layer) (keys : List UInt32) (position : UInt16)
    (s : Session σ) :
    readPages layer keys position (s.mapLink f) = (readPages layer keys position s).mapLink f := by
  fun_induction readPages layer keys position s with
  | case1 position s e s₁ hpoll =>
    rw [readPages_eq, exchange_mapLink hf, hpoll]
    rfl
  | case2 s answer s₁ hrefused hpoll =>
    rw [readPages_eq, exchange_mapLink hf, hpoll]
    simp only [Outcome.mapLink, Outcome.andThen_ok, if_pos hrefused, reduceIte]
  | case3 position s answer s₁ hpoll hrefused hlater =>
    rw [readPages_eq, exchange_mapLink hf, hpoll]
    simp only [Outcome.mapLink, Outcome.andThen_ok, if_pos hrefused, if_neg hlater]
  | case4 position s answer s₁ hpoll hgiven e hdecode =>
    rw [readPages_eq, exchange_mapLink hf, hpoll]
    simp only [Outcome.mapLink, Outcome.andThen_ok, if_neg hgiven, hdecode]
  | case5 position s answer s₁ hpoll hgiven items hdecode hlast =>
    rw [readPages_eq, exchange_mapLink hf, hpoll]
    simp only [Outcome.mapLink, Outcome.andThen_ok, if_neg hgiven, hdecode, if_pos hlast]
  | case6 position s answer s₁ hpoll hgiven items hdecode hmore _ ih =>
    rw [readPages_eq, exchange_mapLink hf, hpoll]
    simp only [Outcome.mapLink, Outcome.andThen_ok, if_neg hgiven, hdecode, if_neg hmore]
    -- a full page: the rest of the pages is read from sessions that differ in the link only
    rw [ih]
    exact Outcome.andThen_mapLink fun _ _ => rfl

theorem readAll_mapLink (layer : Layer) (lists : List (List UInt32)) (s : Session σ) :
    readAll layer lists (s.mapLink f) = (readAll layer lists s).mapLink f := by
  induction lists generalizing s with
  | nil => rfl
  | cons keys rest ih =>
    unfold readAll
    rw [readPages_mapLink hf]
    refine Outcome.andThen_mapLink ?_
    intro items s₁
    rw [ih]
    exact Outcome.andThen_mapLink fun _ _ => rfl

/-! ### Detection -/

/-- A baud rate that one link refuses is refused by the other. -/
theorem switchBaudRate_mapLink (baud : UInt32) (s : Session σ) :
    switchBaudRate baud (s.mapLink f) = (switchBaudRate baud s).mapLink f := by
  unfold switchBaudRate
  rw [link_mapLink, hf.setBaudRate]
  rcases Link.setBaudRate baud s.link with ⟨e | _, link⟩
  · rfl
  · dsimp only [Prod.map, id]
    rw [hf.clearInput]
    rcases Link.clearInput link with ⟨e | _, cleared⟩ <;> rfl

theorem switchTo_mapLink (candidate : Option UInt32) (s : Session σ) :
    switchTo candidate (s.mapLink f) = (switchTo candidate s).mapLink f := by
  cases candidate with
  | none => rfl
  | some baud => exact switchBaudRate_mapLink hf baud s

theorem probe_mapLink (s : Session σ) : probe (s.mapLink f) = (probe s).mapLink f := by
  unfold probe
  rw [options_mapLink, exchange_mapLink hf]
  rcases exchange (versionPoll s.options) s with ⟨e | answer, s₁⟩
  · cases e <;> rfl
  · simp only [Outcome.mapLink]
    split <;> rfl

/-- Both sessions try the candidates in the same order and stop at the same one. -/
theorem search_mapLink (candidates : List (Option UInt32)) (s : Session σ) :
    search candidates (s.mapLink f) = (search candidates s).mapLink f := by
  induction candidates generalizing s with
  | nil => rfl
  | cons candidate rest ih =>
    unfold search
    rw [switchTo_mapLink hf]
    refine Outcome.andThen_mapLink ?_
    intro _ s₁
    rw [probe_mapLink hf]
    refine Outcome.andThen_mapLink ?_
    intro found s₂
    cases found with
    | true => rfl
    | false => exact ih s₂

theorem applyFixedRate_mapLink (s : Session σ) :
    applyFixedRate (s.mapLink f) = (applyFixedRate s).mapLink f := by
  unfold applyFixedRate
  rw [options_mapLink, baudRate_mapLink hf]
  cases s.options.baudRate with
  | none => rfl
  | some baud =>
    dsimp only
    split
    · exact switchBaudRate_mapLink hf baud s
    · rfl

/-- The candidates are the same too: they depend on the options and the rate of the link only. -/
theorem detect_mapLink (s : Session σ) : detect (s.mapLink f) = (detect s).mapLink f := by
  unfold detect
  rw [applyFixedRate_mapLink hf]
  refine Outcome.andThen_mapLink ?_
  intro _ s₁
  -- the list to search is the same before the search itself can be
  have hcandidates : candidates (s₁.mapLink f) = candidates s₁ := by
    unfold candidates
    rw [baudRate_mapLink hf, options_mapLink]
  rw [hcandidates, options_mapLink]
  split
  · exact search_mapLink hf _ s₁
  · rfl

theorem establish_mapLink (s : Session σ) :
    (s.mapLink f).establish = s.establish.mapLink f := by
  have hmap : ({ s.mapLink f with phase := .detecting } : Session τ)
      = Session.mapLink f { s with phase := .detecting } := rfl
  unfold establish
  rw [phase_mapLink, hmap, detect_mapLink hf]
  by_cases hclosed : s.phase = .closed
  · rw [if_pos hclosed, if_pos hclosed]
    rfl
  · rw [if_neg hclosed, if_neg hclosed]
    rcases detect { s with phase := .detecting } with ⟨e | _, s₁⟩ <;> rfl

/-! ### Whole operations -/

/-- What is pending is served on both sides before either link is read. -/
theorem nextMessage_mapLink (s : Session σ) (timeout : Nat) :
    (s.mapLink f).nextMessage timeout = (s.nextMessage timeout).mapLink f := by
  refine whenOpen_mapLink ?_ s
  intro s
  rw [pending_mapLink]
  cases s.pending with
  | cons m rest => rfl
  | nil =>
    dsimp only
    rw [now_mapLink hf]
    exact receive_mapLink hf s _ false

theorem send_mapLink (s : Session σ) (data : List UInt8) :
    (s.mapLink f).send data = (s.send data).mapLink f := by
  refine whenOpen_mapLink ?_ s
  intro s
  exact put_mapLink hf s data

/-- The public operations need no argument of their own: they run what was treated above, when the
session is open and while it is busy. -/
theorem poll_mapLink (s : Session σ) (poll : Poll) :
    (s.mapLink f).poll poll = (s.poll poll).mapLink f := by
  refine whenOpen_mapLink ?_ s
  exact whileBusy_mapLink (exchange_mapLink hf poll)

theorem sendBatch_mapLink (s : Session σ) (batch : List WriteMessage) :
    (s.mapLink f).sendBatch batch = (s.sendBatch batch).mapLink f := by
  refine whenOpen_mapLink ?_ s
  exact whileBusy_mapLink (applyBatch_mapLink hf batch)

/-- The items are split by the options, before the link is used. -/
theorem setConfig_mapLink (s : Session σ) (items : List Item) (layers : Layers) :
    (s.mapLink f).setConfig items layers = (s.setConfig items layers).mapLink f := by
  unfold setConfig
  rw [options_mapLink]
  cases s.options.write.split items layers with
  | error e => rfl
  | ok batch => exact sendBatch_mapLink hf s batch

theorem getConfig_mapLink (s : Session σ) (layer : Layer) (keys : List UInt32) :
    (s.mapLink f).getConfig layer keys = (s.getConfig layer keys).mapLink f := by
  refine whenOpen_mapLink ?_ s
  exact whileBusy_mapLink (readAll_mapLink hf layer _)

theorem reset_mapLink (s : Session σ) (r : Reset) :
    (s.mapLink f).reset r = (s.reset r).mapLink f := by
  refine whenOpen_mapLink ?_ s
  exact putAll_mapLink hf _

theorem setBaudRate_mapLink (s : Session σ) (baud : UInt32) :
    (s.mapLink f).setBaudRate baud = (s.setBaudRate baud).mapLink f := by
  refine whenOpen_mapLink ?_ s
  intro s
  rw [baudRate_mapLink hf]
  split
  · rfl
  · exact switchBaudRate_mapLink hf baud s

end Session

variable {f : σ → τ} [Link σ] [Link τ]

/-- Mapping the link neither changes a reply nor what the call makes of the rest of the session. -/
theorem Call.perform_mapLink (hf : Link.IsHom f) (s : Session σ) (call : Call) :
    call.perform (s.mapLink f) = (call.perform s).map id (Session.mapLink f) := by
  cases call with
  | establish => rw [perform, perform, Session.establish_mapLink hf]; rfl
  | close => rfl
  | nextMessage timeout => rw [perform, perform, Session.nextMessage_mapLink hf]; rfl
  | send data => rw [perform, perform, Session.send_mapLink hf]; rfl
  | poll p => rw [perform, perform, Session.poll_mapLink hf]; rfl
  | setConfig items layers => rw [perform, perform, Session.setConfig_mapLink hf]; rfl
  | sendBatch batch => rw [perform, perform, Session.sendBatch_mapLink hf]; rfl
  | getConfig layer keys => rw [perform, perform, Session.getConfig_mapLink hf]; rfl
  | reset r => rw [perform, perform, Session.reset_mapLink hf]; rfl
  | setBaudRate baud => rw [perform, perform, Session.setBaudRate_mapLink hf]; rfl
  | abort => rfl
  | resume => rfl

end GnssLink
