import GnssLink.Link.Basic
/-!
# GnssLink.Proofs.Link.Logged

**Links that keep a log.** `Logged σ` is a link of `σ` together with all that was done with it, in
order, and how it answered. It answers as the link itself does, so whoever uses it cannot tell. The
time and the baud rate are only looked at and make no entry.
-/

namespace GnssLink

/-- Something that was done with a link, and how it answered. -/
inductive Use where
  | read (result : Except Fault (List UInt8))
  | write (data : List UInt8) (result : Except Fault Unit)
  | setBaudRate (baud : UInt32) (result : Except Fault Unit)
  | clearInput (result : Except Fault Unit)

/-- The error of a result that is one. -/
def errorOf {ε α : Type} : Except ε α → Option ε
  | .error e => some e
  | .ok _ => none

@[simp] theorem errorOf_ok {ε α : Type} (a : α) : errorOf (.ok a : Except ε α) = none := rfl

@[simp] theorem errorOf_error {ε α : Type} (e : ε) :
    errorOf (.error e : Except ε α) = some e := rfl

/-- How the link failed, if it did. -/
def Use.fault? : Use → Option Fault
  | read result => errorOf result
  | write _ result | setBaudRate _ result | clearInput result => errorOf result

/-- A link with a log. -/
structure Logged (σ : Type) where
  link : σ
  uses : List Use := []

namespace Logged

variable {σ : Type}

/-- The outcome of a use with the entry for it. -/
def enter {α : Type} (l : Logged σ) (use : Except Fault α → Use) (outcome : Except Fault α × σ) :
    Except Fault α × Logged σ :=
  (outcome.1, ⟨outcome.2, l.uses ++ [use outcome.1]⟩)

theorem eq_of_enter {α : Type} {l l' : Logged σ} {use : Except Fault α → Use}
    {outcome : Except Fault α × σ} {r : Except Fault α} (h : l.enter use outcome = (r, l')) :
    outcome = (r, l'.link) ∧ l'.uses = l.uses ++ [use r] := by
  cases h
  exact ⟨rfl, rfl⟩

instance [Link σ] : Link (Logged σ) where
  now l := Link.now l.link
  baudRate l := Link.baudRate l.link
  read l := l.enter .read (Link.read l.link)
  write data l := l.enter (.write data) (Link.write data l.link)
  setBaudRate baud l := l.enter (.setBaudRate baud) (Link.setBaudRate baud l.link)
  clearInput l := l.enter .clearInput (Link.clearInput l.link)
  supply l := Link.supply l.link
  supply_of_read h := Link.supply_of_read (eq_of_enter h).1
  progress_of_read h := Link.progress_of_read (eq_of_enter h).1
  supply_write_le data l := Link.supply_write_le data l.link
  supply_setBaudRate_le baud l := Link.supply_setBaudRate_le baud l.link
  supply_clearInput_le l := Link.supply_clearInput_le l.link

end Logged
end GnssLink
