import GnssLink.Dump.Arguments
import GnssLink.Dump.Listing
import GnssLink.Endpoint
import GnssLink.Link.Capture
import GnssLink.Session.Detection
/-!
# GnssLink.Dump.Run

**The dump command.** It opens an endpoint, looks for the receiver unless told not to, and prints
the messages that come until there are enough of them or the time is over. Then it prints the
statistics.

Design points:

* A dump goes on in rounds (`round`), each of which prints at most one message. On a link that goes
  silent there may be any number of rounds, so their number is given (`rounds`).
* When each message was received is read from the clock of the system, which anyone may set. So the
  times are given (`stamp`), in nanoseconds from any fixed start, and nothing is known about them.
* A recording ends, and a message takes at least one byte of it, so one round more than there are
  bytes is enough to play it to the end (`play`).
-/

namespace GnssLink.Dump

open GnssLink.Stream (Message)

/-- How the command ends. -/
inductive Exit where
  /-- Messages were received. -/
  | success
  /-- The command line is wrong. -/
  | usage
  /-- Something failed. -/
  | failure
  /-- The endpoint cannot be opened, or there is no receiver on it. -/
  | receiverNotFound
  /-- No message was received. -/
  | noData
  deriving DecidableEq, Repr

/-- The number that tells the end to the shell. -/
def Exit.code : Exit → UInt8
  | success => 0
  | failure => 1
  | usage | receiverNotFound => 2
  | noData => 3

/-- How the command ends after an error. -/
def Exit.ofError : SessionError → Exit
  | .receiverNotFound _ => receiverNotFound
  | _ => failure

/-- A dump that is going on. -/
structure Progress (σ : Type) where
  session : Session σ
  started : Nat
  received : Nat := 0
  /-- When the last message was received. -/
  last : Option Int := none

/-- How long a round waits for a message. -/
def roundTime : Nat := millis 100

variable {σ : Type} [Link σ] (stamp : Message → Int)

/-- Whether there are enough messages or the time is over. -/
def Progress.isDone (args : Arguments) (p : Progress σ) : Bool :=
  args.duration.any (fun d => seconds d ≤ p.session.now - p.started)
    || args.count.any (fun c => c ≤ p.received)

/-- How a dump ends that is done. -/
def Progress.exit (p : Progress σ) : Exit := if p.received = 0 then .noData else .success

/-- One round: what it prints, and how the dump goes on or ends. -/
def round (args : Arguments) (p : Progress σ) : String × (Progress σ ⊕ Exit) :=
  if p.isDone args then (statistics p.session.demux.tally, .inr p.exit)
  else
    match p.session.nextMessage roundTime with
    | (.error e, _) => ("", .inr (.ofError e))
    | (.ok none, session) => ("", .inl { p with session })
    | (.ok (some m), session) =>
      (listing args.hexdump p.last (stamp m) m,
        .inl { p with session, received := p.received + 1, last := some (stamp m) })

/-- Some rounds: what they print, and how the dump ends if it does. -/
def rounds (args : Arguments) : Nat → Progress σ → String × Option Exit
  | 0, _ => ("", none)
  | n + 1, p =>
    match round stamp args p with
    | (text, .inr exit) => (text, some exit)
    | (text, .inl p) => (text ++ (rounds args n p).1, (rounds args n p).2)

/-- The options of the session on an endpoint. -/
def sessionOptions (args : Arguments) (endpoint : Endpoint) : Options :=
  { autobaud := !args.noProbe, detect := !args.noProbe, baudRate := endpoint.fixedBaud? }

/-- Opens the session and dumps its messages. -/
def dump (args : Arguments) (endpoint : Endpoint) (link : σ) (n : Nat) : String × Option Exit :=
  let fresh : Session σ := { name := args.endpoint, options := sessionOptions args endpoint, link }
  match fresh.establish with
  | (.error e, _) => ("", some (.ofError e))
  | (.ok (), session) =>
    let (text, exit) := rounds stamp args n { session, started := session.now }
    (heading ++ text, exit)

/-- Dumps a recording. -/
def play (args : Arguments) (endpoint : Endpoint) (recording : Capture) : String × Exit :=
  let (text, exit) := dump stamp args endpoint recording (recording.bytes.length + 1)
  (text, exit.getD .failure)

/-- The endpoint that a command line names, if it names one. -/
def endpointOf? (words : List String) : Option Endpoint :=
  (Arguments.parse? words).bind fun args => (Endpoint.parse args.endpoint).toOption

/-- Does what the user asked for, where `receivable` tells what can be received from an endpoint, if
it can be opened: what is printed, and how the command ends. -/
def execute (receivable : Endpoint → Option Capture) (args : Arguments) : String × Exit :=
  match Endpoint.parse args.endpoint with
  | .error _ => ("", .failure)
  | .ok endpoint =>
    match receivable endpoint with
    | none => ("", .receiverNotFound)
    | some recording => play stamp args endpoint recording

/-- Runs the command with the words of a command line. A recording has no times of its own. -/
def run (receivable : Endpoint → Option Capture) (words : List String) : String × Exit :=
  match Arguments.parse? words with
  | none => ("", .usage)
  | some args => execute (fun _ => 0) receivable args

end GnssLink.Dump
