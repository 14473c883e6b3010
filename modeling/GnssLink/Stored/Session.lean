import GnssLink.Endpoint
import GnssLink.Session.Options
import GnssLink.Session.Reset
import GnssLink.Stored.Config
import GnssLink.Stream.Tally
/-!
# GnssLink.Stored.Session

**Sessions as JSON documents**: spans of time, options, resets, endpoints, protocols and tallies.
-/

namespace GnssLink.Stored

open GnssLink.Json (Tree)
open GnssLink.Stream (Protocol Tally Traffic)

/-! ### Spans of time -/

/-- The names of the parts of a span of time. -/
def spanNames : List String := ["secs", "nanos"]

/-- Reads a span of time. Nanoseconds beyond a second are carried, and there must be nothing but the
two parts. -/
def span? (t : Tree) : Option Nat := do
  if !hasOnly spanNames t then none
  match ← fields? spanNames t with
  | [some secs, some nanos] =>
    let span := seconds (← Form.size.read? secs) + (← (Form.nat (UInt32.size - 1)).read? nanos)
    if span < seconds UInt64.size then return span else none
  | _ => none

/-- Spans of time. -/
def Form.span : Form Nat where
  write n := .ofFields (spanNames.zip [.ofNat (n / seconds 1), .ofNat (n % seconds 1)])
  read? := span?

/-! ### Options -/

/-- The names of the fields of `Options`. -/
def optionNames : List String :=
  ["autobaud", "detect", "verbose", "baud_rate", "baud_rates", "detect_timeout", "detect_retries",
    "ack_timeout", "max_pending", "valset"]

/-- Reads options. Only the fixed baud rate may be missing. -/
def options? (t : Tree) : Option Options := do
  match ← fields? optionNames t with
  | [some autobaud, some detect, some verbose, baudRate, some baudRates, some detectTimeout,
      some detectRetries, some ackTimeout, some maxPending, some write] =>
    return {
      autobaud := ← Form.bool.read? autobaud
      detect := ← Form.bool.read? detect
      verbose := ← Form.bool.read? verbose
      baudRate := ← Form.uint32.option.read? (baudRate.getD .null)
      baudRates := ← Form.uint32.list.read? baudRates
      detectTimeout := ← span? detectTimeout
      detectRetries := ← Form.size.read? detectRetries
      ackTimeout := ← span? ackTimeout
      maxPending := ← Form.size.read? maxPending
      write := ← limits? write }
  | _ => none

/-- Options. -/
def Form.options : Form Options where
  write o := .ofFields (optionNames.zip
    [Form.bool.write o.autobaud, Form.bool.write o.detect, Form.bool.write o.verbose,
      Form.uint32.option.write o.baudRate, Form.uint32.list.write o.baudRates,
      Form.span.write o.detectTimeout, Form.size.write o.detectRetries,
      Form.span.write o.ackTimeout, Form.size.write o.maxPending, Form.limits.write o.write])
  read? := options?

/-! ### Resets -/

/-- The name that a reset is stored with. -/
def resetName : Reset → String
  | .none => "None"
  | .soft => "Soft"
  | .hard => "Hard"
  | .hot => "Hot"
  | .warm => "Warm"
  | .cold => "Cold"
  | .default => "Default"
  | .factory => "Factory"
  | .stop => "GnssStop"
  | .start => "GnssStart"
  | .restart => "GnssRestart"
  | .safeboot => "Safeboot"

/-- Resets. -/
def Form.reset : Form Reset := .names resetName Reset.all

/-! ### Endpoints -/

/-- Reads the parts of a serial device. -/
def serial? (t : Tree) : Option Endpoint := do
  match ← fields? ["path", "baud"] t with
  | [some path, baud] =>
    return .serial (← Form.string.read? path) (← Form.uint32.option.read? (baud.getD .null))
  | _ => none

/-- Reads the parts of a network address. -/
def tcp? (t : Tree) : Option Endpoint := do
  match ← fields? ["host", "port"] t with
  | [some host, some number] =>
    return .tcp (← Form.string.read? host) (← Form.uint16.read? number)
  | _ => none

/-- Reads an endpoint. -/
def endpoint? (t : Tree) : Option Endpoint :=
  match alternative? t with
  | some ("Serial", some t) => serial? t
  | some ("Tcp", some t) => tcp? t
  | _ => none

/-- Endpoints. -/
def Form.endpoint : Form Endpoint where
  write
    | .serial path baud => .ofFields [("Serial", .ofFields
        [("path", .ofString path), ("baud", Form.uint32.option.write baud)])]
    | .tcp host number => .ofFields [("Tcp", .ofFields
        [("host", .ofString host), ("port", Form.uint16.write number)])]
  read? := endpoint?

/-! ### Traffic -/

/-- The name that a protocol is stored with. -/
def protocolName : Protocol → String
  | .ubx => "Ubx"
  | .nmea => "Nmea"
  | .rtcm3 => "Rtcm3"
  | .garbage => "Garbage"

/-- Protocols. -/
def Form.protocol : Form Protocol := .names protocolName Protocol.all

/-- Reads the traffic of a protocol. -/
def traffic? (t : Tree) : Option Traffic := do
  match ← fields? ["count", "bytes"] t with
  | [some count, some bytes] =>
    return ⟨← Form.uint32.read? count, ← Form.uint64.read? bytes⟩
  | _ => none

/-- The traffic of a protocol. -/
def Form.traffic : Form Traffic where
  write t := .ofFields [("count", Form.uint32.write t.count), ("bytes", Form.uint64.write t.bytes)]
  read? := traffic?

/-- The names of the fields of `Tally`. -/
def tallyNames : List String := ["total", "ubx", "nmea", "rtcm3", "garbage"]

/-- Reads a tally. -/
def tally? (t : Tree) : Option Tally := do
  match ← fields? tallyNames t with
  | [some total, some ubx, some nmea, some rtcm3, some garbage] =>
    return ⟨← traffic? total, ← traffic? ubx, ← traffic? nmea, ← traffic? rtcm3,
      ← traffic? garbage⟩
  | _ => none

/-- Tallies. -/
def Form.tally : Form Tally where
  write t := .ofFields (tallyNames.zip
    [Form.traffic.write t.total, Form.traffic.write t.ubx, Form.traffic.write t.nmea,
      Form.traffic.write t.rtcm3, Form.traffic.write t.garbage])
  read? := tally?

end GnssLink.Stored
