import GnssLink.Session.Exchange
/-!
# GnssLink.Session.Detection

**Finding the receiver.** A session is ready when its receiver has answered a poll of its version,
at the present baud rate or, if it may search, at one of several others (`candidates`). Without
detection it is ready at once. Whatever prevents it closes the session.
-/

namespace GnssLink

namespace Session

variable {σ : Type} [Link σ]

/-- The shortest version message: one without extensions. -/
def minVersionSize : Nat := 40

/-- Changes the baud rate of the link and forgets what was received at the old one. -/
def switchBaudRate (baud : UInt32) (s : Session σ) : Outcome σ Unit :=
  match Link.setBaudRate baud s.link with
  | (.error f, link) => { s with link }.fail f
  | (.ok (), link) =>
    match Link.clearInput link with
    | (.error f, link) => { s with link }.fail f
    | (.ok (), link) => (.ok (), { s with link, demux := s.demux.clear })

/-- Changes the baud rate of the link, though not that of the receiver. -/
def setBaudRate (s : Session σ) (baud : UInt32) : Outcome σ Unit :=
  s.whenOpen fun s =>
    if s.baudRate.isNone then (.error .noBaudRate, s) else switchBaudRate baud s

/-- The poll of the receiver's version. -/
def versionPoll (options : Options) : Poll where
  id := .monVer
  timeout := options.detectTimeout
  retries := options.detectRetries
  minSize := minVersionSize

/-- Whether the receiver answers. A refusal is an answer too, but tells no version. -/
def probe (s : Session σ) : Outcome σ Bool :=
  match exchange (versionPoll s.options) s with
  | (.ok answer, s) =>
    if answer.refused then (.ok true, s)
    else (.ok true, { s with version := Report.version answer.message.payload })
  | (.error (.pollTimeout _ _), s) => (.ok false, s)
  | (.error e, s) => (.error e, s)

/-- The baud rates to try; `none` is the present one, left as it is. -/
def candidates (s : Session σ) : List (Option UInt32) :=
  match s.baudRate with
  | some current =>
    if s.options.autobaud ∧ s.options.baudRate = none then
      (current :: s.options.baudRates.filter (· ≠ current)).map some
    else [none]
  | none => [none]

/-- Changes to a candidate. -/
def switchTo (candidate : Option UInt32) (s : Session σ) : Outcome σ Unit :=
  match candidate with
  | some baud => switchBaudRate baud s
  | none => (.ok (), s)

/-- Looks for the receiver at each of the candidates. -/
def search : List (Option UInt32) → Session σ → Outcome σ Unit
  | [], s => (.error (.receiverNotFound s.name), s)
  | candidate :: rest, s =>
    (switchTo candidate s).andThen fun _ s =>
      (probe s).andThen fun found s => if found then (.ok (), s) else search rest s

/-- Changes to the only baud rate to use, if there is one and the link has baud rates. -/
def applyFixedRate (s : Session σ) : Outcome σ Unit :=
  match s.options.baudRate with
  | some baud => if s.baudRate.isSome then switchBaudRate baud s else (.ok (), s)
  | none => (.ok (), s)

/-- Looks for the receiver as the options say. -/
def detect (s : Session σ) : Outcome σ Unit :=
  (applyFixedRate s).andThen fun _ s =>
    if s.options.detect then search (candidates s) s else (.ok (), s)

/-- Opens the session. -/
def establish (s : Session σ) : Outcome σ Unit :=
  if s.phase = .closed then (.error .notOpen, s)
  else
    match detect { s with phase := .detecting } with
    | (.ok (), s) => (.ok (), { s with phase := .ready })
    | (.error e, s) => (.error e, s.close)

end Session
end GnssLink
