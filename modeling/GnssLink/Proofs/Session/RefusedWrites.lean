import GnssLink.Proofs.Config.Refusal
import GnssLink.Proofs.Session.Lifecycle
/-!
# GnssLink.Proofs.Session.RefusedWrites

**A write that is refused did not happen** (`Session.run_with_setConfig`). Whatever state the
session is in, such a call leaves its link alone and the session as it was, so a run of calls with
it goes like the run without it, but for one more reply. Any other write is the same as to split it
first and to send what comes out.

The limits of a session are those of its options, which no call changes, so what is refused at one
time is refused at all times.
-/

namespace GnssLink

open GnssLink.Config (Item Layers WriteMessage)

variable {σ : Type} [Link σ]

namespace Call

/-- The call answers and does nothing else: it does not use the link, takes no message from the
stream, and leaves the session as it is. -/
structure IsIdle (s : Session σ) (call : Call) (reply : Reply) : Prop where
  perform : call.perform s = (reply, s)
  uses : call.uses s = []
  journal : call.journal s = []

/-- The calls answer the same and do the same. -/
structure Agree (s : Session σ) (call other : Call) : Prop where
  perform : call.perform s = other.perform s
  uses : call.uses s = other.uses s
  journal : call.journal s = other.journal s

variable {s : Session σ} {items : List Item} {layers : Layers}

theorem isIdle_setConfig {error : Config.WriteError}
    (h : s.options.write.split items layers = .error error) :
    IsIdle s (.setConfig items layers) (.done (.error (.write error))) := by
  have hlogged : s.logged.options.write.split items layers = .error error := h
  refine ⟨?_, ?_, ?_⟩
  · simp only [perform, Session.setConfig, h]
    rfl
  · simp only [uses, perform, Session.setConfig, hlogged]
    rfl
  · simp only [journal, h]

theorem agree_setConfig {batch : List WriteMessage}
    (h : s.options.write.split items layers = .ok batch) :
    Agree s (.setConfig items layers) (.sendBatch batch) := by
  have hlogged : s.logged.options.write.split items layers = .ok batch := h
  refine ⟨?_, ?_, ?_⟩
  · simp only [perform, Session.setConfig, h]
  · simp only [uses, perform, Session.setConfig, hlogged]
  · simp only [journal, h]

end Call

namespace Session

theorem options_performAll (calls : List Call) (s : Session σ) :
    (performAll calls s).2.options = s.options := by
  induction calls generalizing s with
  | nil => rfl
  | cons call rest ih =>
    have hcall := (Call.isTrue s call).options
    exact (ih (call.perform s).2).trans hcall

variable {s : Session σ} {before : List Call} {call : Call}

/-- A run is not disturbed by an idle call. -/
theorem performAll_of_isIdle {reply : Reply}
    (h : Call.IsIdle (performAll before s).2 call reply) (after : List Call) :
    performAll (before ++ call :: after) s
      = ((performAll (before ++ after) s).1.insertIdx before.length reply,
        (performAll (before ++ after) s).2) := by
  induction before generalizing s with
  | nil =>
    have hperform : call.perform s = (reply, s) := h.perform
    simp [performAll, hperform]
  | cons first rest ih =>
    have hrest := ih (s := (first.perform s).2) h
    simp [performAll, hrest]

/-- Of two calls that agree where a run has got to, either will do. -/
theorem performAll_of_agree {other : Call} (h : Call.Agree (performAll before s).2 call other)
    (after : List Call) :
    performAll (before ++ call :: after) s = performAll (before ++ other :: after) s := by
  induction before generalizing s with
  | nil =>
    have hperform : call.perform s = other.perform s := h.perform
    simp [performAll, hperform]
  | cons first rest ih =>
    have hrest := ih (s := (first.perform s).2) h
    simp [performAll, hrest]

/-- **A write that is refused did not happen, any other is the same as to send its messages.** -/
theorem run_with_setConfig (s : Session σ) (before after : List Call) (items : List Item)
    (layers : Layers) :
    (∀ error, s.options.write.Refuses items layers error →
        Call.IsIdle (performAll before s).2 (.setConfig items layers)
            (.done (.error (.write error)))
          ∧ performAll (before ++ .setConfig items layers :: after) s
            = ((performAll (before ++ after) s).1.insertIdx before.length
                (.done (.error (.write error))),
              (performAll (before ++ after) s).2))
      ∧ ((∀ error, ¬s.options.write.Refuses items layers error) →
        ∃ batch, s.options.write.split items layers = .ok batch
          ∧ Call.Agree (performAll before s).2 (.setConfig items layers) (.sendBatch batch)
          ∧ performAll (before ++ .setConfig items layers :: after) s
            = performAll (before ++ .sendBatch batch :: after) s) := by
  have hlimits : (performAll before s).2.options.write = s.options.write :=
    congrArg Options.write (options_performAll before s)
  refine ⟨?_, ?_⟩
  · intro error hrefuses
    have hsplit : (performAll before s).2.options.write.split items layers = .error error := by
      rw [hlimits]
      exact Config.WriteLimits.split_eq_error_iff.mpr hrefuses
    have hidle := Call.isIdle_setConfig hsplit
    exact ⟨hidle, performAll_of_isIdle hidle after⟩
  · intro haccepts
    obtain ⟨batch, hbatch⟩ := Config.WriteLimits.exists_split_eq_ok_iff.mpr haccepts
    have hsplit : (performAll before s).2.options.write.split items layers = .ok batch := by
      rw [hlimits]
      exact hbatch
    have hagree := Call.agree_setConfig hsplit
    exact ⟨batch, hbatch, hagree, performAll_of_agree hagree after⟩

/-- A write of two messages. Only the second one cannot be built, and none is sent. -/
example :
    let s : Session Script := {
      name := "", options := { detect := false, write := { maxItems := 1 } }, link := {} }
    let items : List Item := [⟨⟨0x20110021⟩, .one 1⟩, ⟨⟨0x20110021⟩, .two 1⟩]
    let ready := (performAll [.establish] s).2
    (Call.perform ready (.setConfig items ⟨1⟩)).1.error?
        = some (.write (.codec (.malformed ⟨0x20110021⟩ .widthMismatch)))
      ∧ Call.uses ready (.setConfig items ⟨1⟩) = [] := by cbv

end Session
end GnssLink
