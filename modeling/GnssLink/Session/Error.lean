import GnssLink.Config.Write
import GnssLink.Link.Basic
/-!
# GnssLink.Session.Error

**Why an operation of a session fails.** After a `fault` the session is closed for good; after the
other errors it is as usable as before, if it was open.
-/

namespace GnssLink

/-- Why an operation of a session fails. -/
inductive SessionError where
  | fault (f : Fault)
  /-- The link has no baud rate to change. -/
  | noBaudRate
  | notOpen
  /-- No receiver answers where one was looked for. -/
  | receiverNotFound (name : String)
  /-- The user gave up. -/
  | aborted
  | pollTimeout (name : String) (attempts : Nat)
  /-- Not all messages of a configuration write were acknowledged in time. -/
  | configTimeout (acked expected : Nat)
  /-- The receiver refused a message of a configuration write, or the read of a configuration. -/
  | configRejected (index expected : Nat)
  /-- A configuration write cannot be sent. -/
  | write (error : Config.WriteError)
  /-- The receiver's answer cannot be read. -/
  | codec (error : Config.CodecError)
  deriving DecidableEq, Repr

namespace SessionError

/-- The error in words. -/
def message : SessionError → String
  | fault f => "transport error: " ++ f.reason
  | noBaudRate => "transport error: transport has no baud rate"
  | notOpen => "session is not open"
  | receiverNotFound name => "no receiver detected on " ++ name
  | aborted => "aborted"
  | pollTimeout name attempts =>
    "no response to poll of " ++ name ++ " after " ++ toString attempts ++ " attempts"
  | configTimeout acked expected =>
    "configuration not acknowledged (" ++ toString acked ++ " of " ++ toString expected
      ++ " messages acknowledged)"
  | configRejected index expected =>
    "configuration rejected by receiver (message " ++ toString index ++ " of "
      ++ toString expected ++ ")"
  | write e => e.message
  | codec e => e.message

end SessionError
end GnssLink
