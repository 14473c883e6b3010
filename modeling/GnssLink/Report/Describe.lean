import GnssLink.Report.Control
import GnssLink.Report.Fix
import GnssLink.Report.Navigation
import GnssLink.Report.Sky
import GnssLink.Report.Version
/-!
# GnssLink.Report.Describe

**One line about a UBX message.** `describe` looks up the report for a message. Where there is
none, or the payload is not one that the report knows, there is nothing more to say about the
message than its name. A report that read past the end of the payload would have no result
(`describe?`).
-/

namespace GnssLink.Report

/-- The reports by message. -/
def known : List (MessageId × (List UInt8 → Reading)) := [
  (⟨0x01, 0x07⟩, fix),
  (⟨0x01, 0x01⟩, earthPosition),
  (⟨0x01, 0x13⟩, fineEarthPosition),
  (⟨0x01, 0x3c⟩, baseline),
  (⟨0x01, 0x03⟩, status),
  (⟨0x01, 0x12⟩, velocity),
  (⟨0x01, 0x43⟩, signals),
  (⟨0x01, 0x35⟩, satellites),
  (⟨0x01, 0x34⟩, timeOnly 0), (⟨0x01, 0x22⟩, timeOnly 0), (⟨0x01, 0x04⟩, timeOnly 0),
  (⟨0x01, 0x02⟩, timeOnly 0), (⟨0x01, 0x11⟩, timeOnly 0), (⟨0x01, 0x61⟩, timeOnly 0),
  (⟨0x01, 0x39⟩, timeOnly 0), (⟨0x01, 0x21⟩, timeOnly 0), (⟨0x01, 0x26⟩, timeOnly 0),
  (⟨0x01, 0x20⟩, timeOnly 0), (⟨0x01, 0x23⟩, timeOnly 0), (⟨0x01, 0x24⟩, timeOnly 0),
  (⟨0x01, 0x25⟩, timeOnly 0), (⟨0x01, 0x36⟩, timeOnly 0),
  (⟨0x01, 0x3b⟩, timeOnly 4), (⟨0x01, 0x09⟩, timeOnly 4), (⟨0x01, 0x14⟩, timeOnly 4),
  (⟨0x02, 0x15⟩, measurements),
  (.monVer, version?),
  (⟨0x0a, 0x0e⟩, temperature),
  (.cfgValset, configWrite),
  (.cfgValget, configRead),
  (.ackAck, acknowledgement "acknowledgement"),
  (.ackNak, acknowledgement "negative-acknowledgement")]

/-- The class of notices, all of which are reported alike. -/
def noticeClass : UInt8 := 0x04

/-- The report on a message. A message without payload is a request for one. -/
def describe? (id : MessageId) (payload : List UInt8) : Reading :=
  if payload.isEmpty then some (some "empty message / poll request")
  else if id.cls = noticeClass then some (some (notice payload))
  else
    match known.find? fun entry => entry.1 = id with
    | some (_, report) => report payload
    | none => some none

/-- What there is to say about a message. -/
def describe (id : MessageId) (payload : List UInt8) : Option String :=
  (describe? id payload).join

theorem describe_of_known {id : MessageId} {report : List UInt8 → Reading} {payload : List UInt8}
    (hpayload : payload ≠ []) (hclass : id.cls ≠ noticeClass)
    (hknown : known.find? (fun entry => entry.1 = id) = some (id, report)) :
    describe id payload = (report payload).join := by
  have hsome : payload.isEmpty = false := by simpa using hpayload
  simp [describe, describe?, hsome, hclass, hknown]

end GnssLink.Report
