import GnssLink.Proofs.Session.Conduct
/-!
# GnssLink.Proofs.Session.Lifecycle

**The life of a session** (`Session.life_of_calls`). Between two calls a session is either ready or
closed, whatever its link does. Only the first fault of the link, a search in vain and `close` end
it, and then the link is never used again.

A call ends in one of few ways (`Session.Ending`), which follow from how its parts end and from the
phase in which the session was.
-/

namespace GnssLink

open GnssLink.Config (Item Layers)

/-- The phase that a session tells. One that was never opened is as good as closed. -/
def Phase.told : Phase → Phase
  | fresh => closed
  | phase => phase

/-- Whether a session may be in this phase between two calls. -/
def Phase.IsSettled (phase : Phase) : Prop := phase.told = .closed ∨ phase.told = .ready

theorem Phase.eq_ready_of_told {phase : Phase} (h : phase.told = .ready) : phase = .ready := by
  cases phase <;> cases h
  rfl

/-- Between two calls an open session has nothing under way. -/
theorem Phase.IsSettled.eq_ready {phase : Phase} (h : phase.IsSettled)
    (hopen : phase.isOpen = true) : phase = .ready := by
  rcases h with h | h <;> cases phase <;> cases h <;> first | rfl | cases hopen

/-- The error that a call answers, if it fails. -/
def Reply.error? : Reply → Option SessionError
  | done r => errorOf r
  | message r => errorOf r
  | answer r => errorOf r
  | items r => errorOf r

namespace Call

/-- How a session answers that gave up its link. -/
def IsRefused (call : Call) (reply : Reply) : Prop :=
  match call with
  | close | abort | resume => reply.error? = none
  | setConfig _ _ => reply.error? = some .notOpen ∨ ∃ e, reply.error? = some (.write e)
  | establish | nextMessage _ | send _ | poll _ | sendBatch _ | getConfig _ _ | reset _
  | setBaudRate _ => reply.error? = some .notOpen

/-- The phase after a call during which the link did not fail. -/
def phaseAfter (call : Call) (phase : Phase) (error? : Option SessionError) : Phase :=
  match call with
  | establish => if error?.isSome then .closed else .ready
  | close => .closed
  | _ => phase

end Call

namespace Session

variable {σ : Type} [Link σ]

/-! ### How calls end -/

/-- How a call ends, and the error that it answers. -/
inductive Ending (s : Session (Logged σ)) (call : Call) :
    Option SessionError → Session (Logged σ) → Prop where
  | notOpen (closed : s.phase.isOpen = false)
      (phase : s.phase = call.phaseAfter s.phase (some .notOpen)) :
      Ending s call (some .notOpen) s
  | noBaudRate {baud : UInt32} (setting : call = .setBaudRate baud)
      (without : Link.baudRate s.link = none) : Ending s call (some .noBaudRate) s
  | done {error? : Option SessionError} {s' : Session (Logged σ)} (served : Served s s')
      (own : ∀ e, error? = some e → e.isOwn = true)
      (phase : s'.phase = call.phaseAfter s.phase error?) : Ending s call error? s'
  | fault {f : Fault} {use : Use} {s₁ s' : Session (Logged σ)} (served : Served s s₁)
      (last : s'.link.uses = s₁.link.uses ++ [use]) (failed : use.fault? = some f)
      (closed : s'.phase = .closed) : Ending s call (some (.fault f)) s'

variable {s : Session (Logged σ)} {call : Call} {α : Type}

/-- A call that consists of one operation ends as the operation does. -/
theorem Ending.of_conduct {outcome : Outcome (Logged σ) α} (h : Conduct s outcome)
    (hphase : ∀ error?, call.phaseAfter s.phase error? = s.phase) :
    Ending s call (errorOf outcome.1) outcome.2 := by
  cases h with
  | ok served phase => exact .done served nofun (phase.trans (hphase _).symm)
  | error own served phase =>
    refine .done served ?_ (phase.trans (hphase _).symm)
    rintro _ ⟨⟩
    exact own
  | fault served last failed closed => exact .fault served last failed closed

/-- A call that needs an open session is refused in any other, which stays as it is. -/
theorem ending_whenOpen (call : Call) {run : Session (Logged σ) → Outcome (Logged σ) α}
    (hrun : s.phase.isOpen = true → Conduct s (run s))
    (hphase : ∀ error?, call.phaseAfter s.phase error? = s.phase) :
    Ending s call (errorOf (s.whenOpen run).1) (s.whenOpen run).2 := by
  unfold whenOpen
  cases hopen : s.phase.isOpen with
  | false => exact .notOpen hopen (hphase _).symm
  | true => exact .of_conduct (hrun hopen) hphase

omit [Link σ] in
/-- The session is busy meanwhile and ready again, unless it was closed. -/
theorem conduct_whileBusy {run : Session (Logged σ) → Outcome (Logged σ) α}
    (hready : s.phase = .ready) (hrun : ∀ s, Conduct s (run s)) : Conduct s (s.whileBusy run) := by
  have h := hrun { s with phase := .busy }
  unfold whileBusy
  rcases hrun : run { s with phase := .busy } with ⟨r, s₁⟩
  rw [hrun] at h
  dsimp only
  cases h with
  | ok served phase =>
    rw [if_pos phase]
    exact .ok (served.trans (.of_eq rfl)) hready.symm
  | error own served phase =>
    rw [if_pos phase]
    exact .error own (served.trans (.of_eq rfl)) hready.symm
  | fault served last failed closed =>
    rw [if_neg (by simp [closed])]
    exact .fault served last failed closed

/-- Establishing decides the phase by its result, whatever the phases on the way were. -/
theorem ending_establish (s : Session (Logged σ)) :
    Ending s .establish (errorOf s.establish.1) s.establish.2 := by
  unfold establish
  by_cases hclosed : s.phase = .closed
  · rw [if_pos hclosed]
    exact .notOpen (by rw [hclosed]; rfl) hclosed
  · have h := conduct_detect { s with phase := .detecting }
    rw [if_neg hclosed]
    rcases hdetect : detect { s with phase := .detecting } with ⟨r, s₁⟩
    rw [hdetect] at h
    cases h with
    | ok served _ => exact .done (served.trans (.of_eq rfl)) nofun rfl
    | error own served _ =>
      refine .done (served.trans (.of_eq rfl)) ?_ rfl
      rintro _ ⟨⟩
      exact own
    | fault served last failed _ => exact .fault served last failed rfl

/-- A session that is ready tells the rate of its link, so only a link without one cannot be set. -/
theorem ending_setBaudRate (hsettled : s.phase.IsSettled) (baud : UInt32) :
    Ending s (.setBaudRate baud) (errorOf (s.setBaudRate baud).1) (s.setBaudRate baud).2 := by
  unfold setBaudRate whenOpen
  cases hopen : s.phase.isOpen with
  | false => exact .notOpen hopen rfl
  | true =>
    have hready := hsettled.eq_ready hopen
    have hrate : s.baudRate = Link.baudRate s.link := by
      unfold baudRate
      rw [if_neg (by simp [hready])]
    dsimp only
    by_cases hnone : s.baudRate.isNone
    · rw [if_pos rfl, if_pos hnone]
      exact .noBaudRate rfl (by rw [← hrate]; exact Option.isNone_iff_eq_none.mp hnone)
    · rw [if_pos rfl, if_neg hnone]
      exact .of_conduct (conduct_switchBaudRate baud s) fun _ => rfl

/-- **Every call ends in one of these ways.** Each is one operation, run while the session is open.
-/
theorem ending_perform (hsettled : s.phase.IsSettled) (call : Call) :
    Ending s call (call.perform s).1.error? (call.perform s).2 := by
  have hsendBatch (batch : List Config.WriteMessage) {call : Call}
      (hphase : ∀ error?, call.phaseAfter s.phase error? = s.phase) :
      Ending s call (errorOf (s.sendBatch batch).1) (s.sendBatch batch).2 :=
    ending_whenOpen call
      (fun h => conduct_whileBusy (hsettled.eq_ready h) (conduct_applyBatch batch)) hphase
  cases call with
  | establish => exact ending_establish s
  | close => exact .done (.of_eq rfl) nofun rfl
  | nextMessage timeout =>
    show Ending s _ (errorOf (s.nextMessage timeout).1) (s.nextMessage timeout).2
    refine ending_whenOpen (.nextMessage timeout) ?_ fun _ => rfl
    intro _
    split
    · exact .ok (.of_eq rfl) rfl
    · exact conduct_receive s _ false
  | send data =>
    show Ending s _ (errorOf (s.send data).1) (s.send data).2
    refine ending_whenOpen (.send data) ?_ fun _ => rfl
    intro _
    exact conduct_put s data
  | poll p =>
    show Ending s _ (errorOf (s.poll p).1) (s.poll p).2
    refine ending_whenOpen (.poll p) ?_ fun _ => rfl
    intro hopen
    exact conduct_whileBusy (hsettled.eq_ready hopen) (conduct_exchange p)
  | setConfig items layers =>
    show Ending s _ (errorOf (s.setConfig items layers).1) (s.setConfig items layers).2
    unfold setConfig
    cases s.options.write.split items layers with
    | error e =>
      refine .done (.of_eq rfl) ?_ rfl
      rintro _ ⟨⟩
      rfl
    | ok batch => exact hsendBatch batch fun _ => rfl
  | sendBatch batch => exact hsendBatch batch fun _ => rfl
  | getConfig layer keys =>
    show Ending s _ (errorOf (s.getConfig layer keys).1) (s.getConfig layer keys).2
    refine ending_whenOpen (.getConfig layer keys) ?_ fun _ => rfl
    intro hopen
    exact conduct_whileBusy (hsettled.eq_ready hopen) (conduct_readAll layer _)
  | reset r =>
    show Ending s _ (errorOf (s.reset r).1) (s.reset r).2
    refine ending_whenOpen (.reset r) ?_ fun _ => rfl
    intro _
    exact conduct_putAll _ s
  | setBaudRate baud => exact ending_setBaudRate hsettled baud
  | abort => exact .done (.of_eq rfl) nofun rfl
  | resume => exact .done (.of_eq rfl) nofun rfl

/-! ### What follows from the ending -/

namespace Ending

variable {error? : Option SessionError} {s' : Session (Logged σ)}

/-- A session is settled after a call if it was before. -/
theorem isSettled (h : Ending s call error? s') (hsettled : s.phase.IsSettled) :
    s'.phase.IsSettled := by
  cases h with
  | notOpen => exact hsettled
  | noBaudRate => exact hsettled
  | done _ _ phase =>
    rw [phase]
    cases call with
    | establish => cases error? <;> first | exact .inl rfl | exact .inr rfl
    | close => exact .inl rfl
    | _ => exact hsettled
  | fault _ _ _ closed =>
    rw [closed]
    exact .inl rfl

/-- A fault of the link is the end. -/
theorem of_use (h : Ending s call error? s') (hnew : s.link.uses = []) {before after : List Use}
    {use : Use} {f : Fault} (huses : s'.link.uses = before ++ use :: after)
    (hfault : use.fault? = some f) :
    after = [] ∧ error? = some (.fault f) ∧ s'.phase = .closed := by
  have hnone (uses : List Use) (hdone : ∀ use ∈ uses, use.fault? = none) : use ∉ uses := by
    intro hmem
    rw [hdone use hmem] at hfault
    cases hfault
  cases h with
  | notOpen => simp [hnew] at huses
  | noBaudRate => simp [hnew] at huses
  | done served =>
    obtain ⟨uses, hserved, hdone⟩ := served
    rw [hserved, hnew, List.nil_append] at huses
    exact absurd (by simp [huses]) (hnone uses hdone)
  | @fault _ broken _ _ served last failed closed =>
    obtain ⟨uses, hserved, hdone⟩ := served
    rw [last, hserved, hnew, List.nil_append] at huses
    rcases List.eq_nil_or_concat after with rfl | ⟨more, final, rfl⟩
    · obtain ⟨-, huse⟩ := List.append_inj' huses rfl
      obtain rfl : broken = use := List.singleton_inj.mp huse
      rw [failed] at hfault
      cases hfault
      exact ⟨rfl, rfl, closed⟩
    · -- the link was used once more, so the failed use is among those before the last, which
      -- were all served
      have hsame : uses ++ [broken] = (before ++ use :: more) ++ [final] := by simpa using huses
      obtain ⟨hmem, -⟩ := List.append_inj' hsame rfl
      exact absurd (by simp [hmem]) (hnone uses hdone)

theorem of_fault {f : Fault} (h : Ending s call (some (.fault f)) s') :
    s'.phase = .closed
      ∧ ∃ before use, s'.link.uses = before ++ [use] ∧ use.fault? = some f := by
  cases h with
  | done _ own => cases own _ rfl
  | fault served last failed closed => exact ⟨closed, _, _, last, failed⟩

/-- Asking for a rate that the link does not have changes nothing. -/
theorem of_noBaudRate (h : Ending s call (some .noBaudRate) s') :
    (∃ baud, call = .setBaudRate baud) ∧ Link.baudRate s.link = none ∧ s' = s := by
  cases h with
  | noBaudRate setting without => exact ⟨⟨_, setting⟩, without, rfl⟩
  | done _ own => cases own _ rfl

theorem isOpen_of_notOpen (h : Ending s call (some .notOpen) s') : s.phase.isOpen = false := by
  cases h with
  | notOpen closed => exact closed
  | done _ own => cases own _ rfl

theorem phase_of_none (h : Ending s call none s') : s'.phase = call.phaseAfter s.phase none := by
  cases h with
  | done _ _ phase => exact phase

/-- An error that is not the link's. -/
theorem phase_of_own {e : SessionError} (h : Ending s call (some e) s') (hown : e.isOwn = true) :
    s'.phase = call.phaseAfter s.phase (some e) := by
  cases h with
  | notOpen => cases hown
  | noBaudRate => cases hown
  | done _ _ phase => exact phase
  | fault => cases hown

theorem phase_of_establish {e : SessionError} (h : Ending s .establish (some e) s') :
    s'.phase = .closed := by
  cases h with
  | notOpen _ phase => exact phase
  | noBaudRate setting => cases setting
  | done _ _ phase => exact phase
  | fault _ _ _ closed => exact closed

end Ending

/-! ### Closed sessions -/

/-- A closed session stays closed, leaves its link alone and refuses whatever needs it. -/
theorem perform_of_closed {s : Session σ} (h : s.phase = .closed) (call : Call) :
    (call.perform s).2.phase = .closed ∧ (call.perform s).2.link = s.link
      ∧ call.IsRefused (call.perform s).1 := by
  have hopen : s.phase.isOpen = false := by rw [h]; rfl
  have hrefused {α : Type} (run : Session σ → Outcome σ α) :
      s.whenOpen run = (.error .notOpen, s) := if_neg (by simp [hopen])
  have hestablish : s.establish = (.error .notOpen, s) := if_pos h
  cases call with
  | establish => simp [Call.perform, hestablish, h, Call.IsRefused, Reply.error?]
  | close => exact ⟨rfl, rfl, rfl⟩
  | nextMessage timeout =>
    simp [Call.perform, nextMessage, hrefused, h, Call.IsRefused, Reply.error?]
  | send data => simp [Call.perform, send, hrefused, h, Call.IsRefused, Reply.error?]
  | poll p => simp [Call.perform, Session.poll, hrefused, h, Call.IsRefused, Reply.error?]
  | setConfig items layers =>
    -- items that cannot be written are refused before the session is asked
    cases hsplit : s.options.write.split items layers with
    | error e => simp [Call.perform, setConfig, hsplit, h, Call.IsRefused, Reply.error?]
    | ok batch =>
      simp [Call.perform, setConfig, hsplit, sendBatch, hrefused, h, Call.IsRefused, Reply.error?]
  | sendBatch batch => simp [Call.perform, sendBatch, hrefused, h, Call.IsRefused, Reply.error?]
  | getConfig layer keys =>
    simp [Call.perform, getConfig, hrefused, h, Call.IsRefused, Reply.error?]
  | reset r => simp [Call.perform, reset, hrefused, h, Call.IsRefused, Reply.error?]
  | setBaudRate baud =>
    simp [Call.perform, setBaudRate, hrefused, h, Call.IsRefused, Reply.error?]
  | abort => exact ⟨h, rfl, rfl⟩
  | resume => exact ⟨h, rfl, rfl⟩

/-- What was closed stays so, whatever is called later. -/
theorem performAll_of_closed {s : Session σ} (h : s.phase = .closed) (calls : List Call) :
    (performAll calls s).2.phase = .closed := by
  induction calls generalizing s with
  | nil => exact h
  | cons call rest ih => exact ih (perform_of_closed h call).1

theorem uses_of_closed {s : Session σ} (h : s.phase = .closed) (call : Call) :
    call.uses s = [] := by
  have hlogged : s.logged.phase = .closed := h
  rw [Call.uses, (perform_of_closed hlogged call).2.1]
  rfl

/-! ### Lives -/

/-- What a call on a session means for its life. -/
structure Life (s : Session σ) (call : Call) : Prop where
  /-- Nobody sees a session that looks for its receiver or is busy. -/
  settled : (call.perform s).2.phase.IsSettled
  /-- A session that is ready holds its link: it tells the baud rate and refuses no call for not
  being open. -/
  held : (call.perform s).2.phase.told = .ready →
    (call.perform s).2.baudRate = Link.baudRate (call.perform s).2.link
      ∧ ∀ next : Call, (next.perform (call.perform s).2).1.error? ≠ some .notOpen
  /-- Where the link fails, it is not used again, and the session is closed. -/
  fault : ∀ before use after f, call.uses s = before ++ use :: after → use.fault? = some f →
    after = [] ∧ (call.perform s).1.error? = some (.fault f)
      ∧ (call.perform s).2.phase = .closed
  /-- No fault is told but that of the last use. -/
  of_fault : ∀ f, (call.perform s).1.error? = some (.fault f) →
    (call.perform s).2.phase = .closed
      ∧ ∃ before use, call.uses s = before ++ [use] ∧ use.fault? = some f
  /-- Only a change of the baud rate can ask for more than the link has. -/
  of_noBaudRate : (call.perform s).1.error? = some .noBaudRate →
    (∃ baud, call = .setBaudRate baud) ∧ Link.baudRate s.link = none
      ∧ call.uses s = [] ∧ (call.perform s).2 = s
  /-- A success opens or closes the session where this was called for, and else leaves its phase. -/
  of_success : (call.perform s).1.error? = none →
    (call.perform s).2.phase = call.phaseAfter s.phase none
  /-- What keeps a session from being opened closes it. -/
  of_establish : call = .establish → ∀ e, (call.perform s).1.error? = some e →
    (call.perform s).2.phase = .closed
  /-- Otherwise an error of its own leaves an open session ready. -/
  of_own : call ≠ .establish → s.phase.isOpen = true →
    ∀ e, (call.perform s).1.error? = some e → e.isOwn = true → (call.perform s).2.phase = .ready
  of_close : call = .close → (call.perform s).2.phase = .closed
  /-- What is closed never uses its link again and refuses every call that needs it. -/
  gone : (call.perform s).2.phase = .closed → ∀ (later : List Call) (next : Call),
    (performAll later (call.perform s).2).2.phase = .closed
      ∧ next.uses (performAll later (call.perform s).2).2 = []
      ∧ next.IsRefused (next.perform (performAll later (call.perform s).2).2).1

theorem isSettled_perform {s : Session σ} (hsettled : s.phase.IsSettled) (call : Call) :
    (call.perform s).2.phase.IsSettled := by
  rw [Call.perform_logged]
  exact (ending_perform (s := s.logged) hsettled call).isSettled hsettled

theorem isSettled_performAll {s : Session σ} (hsettled : s.phase.IsSettled) (calls : List Call) :
    (performAll calls s).2.phase.IsSettled := by
  induction calls generalizing s with
  | nil => exact hsettled
  | cons call rest ih => exact ih (isSettled_perform hsettled call)

/-- A session that is ready is not told to be opened first. -/
theorem error?_of_ready {s : Session σ} (hready : s.phase = .ready) (call : Call) :
    (call.perform s).1.error? ≠ some .notOpen := by
  have hlogged : s.logged.phase = .ready := hready
  have hsettled : s.logged.phase.IsSettled := by
    rw [hlogged]
    exact .inr rfl
  have hending := ending_perform hsettled call
  rw [Call.perform_logged]
  intro herror
  have hclosed : s.phase.isOpen = false := by
    rw [show (call.perform s.logged).1.error? = some .notOpen from herror] at hending
    exact hending.isOpen_of_notOpen
  rw [hready] at hclosed
  cases hclosed

/-- A call on a settled session means what it should for its life. -/
theorem life_of_isSettled {s : Session σ} (hsettled : s.phase.IsSettled) (call : Call) :
    Life s call := by
  -- the logged session answers the same and keeps the same phase, and its log is that of the call
  have hnew : s.logged.link.uses = [] := rfl
  have hending := ending_perform (s := s.logged) hsettled call
  have hlogged := Call.perform_logged s call
  have hreply : (call.perform s).1 = (call.perform s.logged).1 := congrArg Prod.fst hlogged
  have hsession : (call.perform s).2 = (call.perform s.logged).2.mapLink Logged.link :=
    congrArg Prod.snd hlogged
  have hphase : (call.perform s).2.phase = (call.perform s.logged).2.phase :=
    congrArg Session.phase hsession
  have huses : call.uses s = (call.perform s.logged).2.link.uses := rfl
  rw [← hreply] at hending
  generalize (call.perform s.logged).2 = s' at hending hsession hphase huses
  refine {
    settled := hphase ▸ hending.isSettled hsettled
    held := ?_
    fault := ?_
    of_fault := ?_
    of_noBaudRate := ?_
    of_success := ?_
    of_establish := ?_
    of_own := ?_
    of_close := ?_
    gone := ?_ }
  · intro htold
    have hready := Phase.eq_ready_of_told htold
    refine ⟨?_, error?_of_ready hready⟩
    unfold baudRate
    exact if_neg (by simp [hready])
  · intro before use after f hsplit hfault
    rw [hphase]
    exact hending.of_use hnew (huses ▸ hsplit) hfault
  · intro f herror
    rw [herror] at hending
    rw [hphase, huses]
    exact hending.of_fault
  · intro herror
    rw [herror] at hending
    obtain ⟨hcall, hrate, rfl⟩ := hending.of_noBaudRate
    exact ⟨hcall, hrate, huses, hsession⟩
  · intro hnone
    rw [hnone] at hending
    rw [hphase]
    exact hending.phase_of_none
  · rintro rfl e herror
    rw [herror] at hending
    rw [hphase]
    exact hending.phase_of_establish
  · intro hcall hopen e herror hown
    rw [herror] at hending
    have hready := hsettled.eq_ready hopen
    rw [hphase, hending.phase_of_own hown]
    cases call with
    | establish => exact absurd rfl hcall
    | close => cases herror
    | _ => exact hready
  · rintro rfl
    rfl
  · intro hclosed later next
    have hstays := performAll_of_closed hclosed later
    exact ⟨hstays, uses_of_closed hstays next, (perform_of_closed hstays next).2.2⟩

/-- A call that does not end with a fault met none. -/
theorem Life.served {s : Session σ} {call : Call} (h : Life s call)
    (hnone : ∀ f, (call.perform s).1.error? ≠ some (.fault f)) :
    ∀ use ∈ call.uses s, use.fault? = none := by
  intro use hmem
  obtain ⟨before, after, huses⟩ := List.append_of_mem hmem
  cases hfault : use.fault? with
  | none => rfl
  | some f => exact absurd (h.fault before use after f huses hfault).2.1 (hnone f)

/-- **The life of a session**, in whatever order it is used and whatever its link does. -/
theorem life_of_calls (name : String) (options : Options) (link : σ) (before : List Call)
    (call : Call) : Life (performAll before { name, options, link }).2 call :=
  life_of_isSettled (isSettled_performAll (.inl rfl) before) call

/-- A reset of two frames whose second one cannot be written. -/
example :
    let s : Session Script := {
      name := "", options := { detect := false }, link := { failWrite := some 2 } }
    let ready := (performAll [.establish] s).2
    (Call.uses ready (.reset .factory)).map Use.fault? = [none, some Script.unplugged]
      ∧ (Call.perform ready (.reset .factory)).2.phase = .closed := by decide

end Session
end GnssLink
