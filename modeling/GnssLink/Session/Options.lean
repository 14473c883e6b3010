import GnssLink.Config.Write
import GnssLink.Time
/-!
# GnssLink.Session.Options

**Options of a session**, with the values they usually have.
-/

namespace GnssLink

/-- How a session behaves. -/
structure Options where
  /-- Whether the receiver is searched for at several baud rates. -/
  autobaud : Bool := true
  /-- Whether the receiver is asked for its version before the session is ready. -/
  detect : Bool := true
  /-- Whether progress is worth a message to the user. -/
  verbose : Bool := true
  /-- The only baud rate to use, if it is known. -/
  baudRate : Option UInt32 := none
  /-- The baud rates to search at, after the present one. -/
  baudRates : List UInt32 := [9600, 38400, 115200, 230400, 460800, 921600]
  /-- How long each attempt to find the receiver takes. -/
  detectTimeout : Nat := millis 1500
  /-- How many further attempts there are at each baud rate. -/
  detectRetries : Nat := 1
  /-- How long to wait for each acknowledgement of a configuration write. -/
  ackTimeout : Nat := millis 2500
  /-- The most messages to keep while waiting for others. -/
  maxPending : Nat := 1000
  /-- How configuration writes are split. -/
  write : Config.WriteLimits := {}
  deriving DecidableEq, Repr

end GnssLink
